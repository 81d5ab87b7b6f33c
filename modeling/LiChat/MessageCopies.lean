import LiChat.ChatSend
import LiChat.General.Runs
import LiChat.General.WriteQueues
import LiChat.ReadReceipts

/-!
# The copies of a message

Each member of a room has a copy of its own.  The sender writes all copies one by one, their
owners delete them, and readers mark all of them.  The writes of a device go through its queue,
and those of different devices in any order.
-/

namespace LiChat
open WriteQueues

/-- A call of `OutgoingMessages.sendMessage`, with the id in the dictionary. -/
structure SendCall where
  senderId : Uid
  chatRoomId : String
  messageId : String
  memberIds : List Uid
  messageDictionary : MessageDictionary

namespace SendCall

def data (m : SendCall) : MessageDictionary :=
  { m.messageDictionary with messageId := some m.messageId }

def path (m : SendCall) (memberId : Uid) : MessagePath := ⟨memberId, m.chatRoomId, m.messageId⟩

/-- `setData` for every member. -/
def writes (m : SendCall) : List (WriteQueues.Write MessagePath MessageDictionary) :=
  m.memberIds.map fun memberId => .set (m.path memberId) m.data

end SendCall

/-- The documents with the queues of the devices, the calls of `getDocument` that wait for
their answers, and the messages that have been sent and the copies that have been deleted. -/
structure MessageWorld where
  firestore : WriteQueues.State Uid MessagePath MessageDictionary
  getDocuments : List (Uid × MessagePath × String)
  sent : List SendCall
  deleted : List MessagePath

inductive MessageAction where
  | sendMessage (m : SendCall)
  | deleteMessage (currentId : Uid) (withId chatRoomId : String)
  | updateMessage (currentId : Uid) (readDate withId chatRoomId : String) (memberIds : List Uid)
  | getDocument (n : ℕ)
  | commit (userId : Uid)

namespace MessageWorld

def init : MessageWorld := ⟨⟨fun _ => none, fun _ => []⟩, [], [], []⟩

/-- No id is drawn twice, and a row is deleted of a document that the device has. -/
def step (w : MessageWorld) : MessageAction → Option MessageWorld
  | .sendMessage m =>
    if m.messageId ∈ w.sent.map SendCall.messageId then none
    else some { w with
      firestore := issue m.senderId m.writes w.firestore
      sent := w.sent ++ [m] }
  | .deleteMessage currentId withId chatRoomId =>
    let path : MessagePath := ⟨currentId, chatRoomId, withId⟩
    if (view w.firestore currentId path).isSome then
      some { w with
        firestore := issue currentId [.delete path] w.firestore
        deleted := w.deleted ++ [path] }
    else none
  | .updateMessage currentId readDate withId chatRoomId memberIds =>
    some { w with
      getDocuments := w.getDocuments ++
        (OutgoingMessages.updateMessage readDate withId chatRoomId memberIds).map (currentId, ·) }
  | .getDocument n =>
    w.getDocuments[n]?.map fun (currentId, path, readDate) =>
      { w with
        getDocuments := w.getDocuments.eraseIdx n
        firestore :=
          if (view w.firestore currentId path).isSome then
            issue currentId [.update path (OutgoingMessages.markRead readDate)] w.firestore
          else w.firestore }
  | .commit userId => (commit userId w.firestore).map fun firestore => { w with firestore := firestore }

section Step
variable {w w' : MessageWorld}

theorem step_sent {a : MessageAction} (h : w.step a = some w') :
    w'.sent = w.sent ∨ ∃ m, a = .sendMessage m ∧ m.messageId ∉ w.sent.map SendCall.messageId ∧
      w'.sent = w.sent ++ [m] := by
  cases a with
  | sendMessage m =>
    simp only [step, Option.ite_none_left_eq_some, Option.some.injEq] at h
    obtain ⟨hid, rfl⟩ := h
    exact .inr ⟨m, rfl, hid, rfl⟩
  | deleteMessage currentId withId chatRoomId =>
    simp only [step, Option.ite_none_right_eq_some, Option.some.injEq] at h
    obtain ⟨-, rfl⟩ := h
    exact .inl rfl
  | updateMessage currentId readDate withId chatRoomId memberIds =>
    obtain rfl := Option.some.inj h
    exact .inl rfl
  | getDocument n =>
    obtain ⟨_, -, rfl⟩ := Option.map_eq_some_iff.mp h
    exact .inl rfl
  | commit userId =>
    obtain ⟨_, -, rfl⟩ := Option.map_eq_some_iff.mp h
    exact .inl rfl

theorem step_deleted {a : MessageAction} (h : w.step a = some w') :
    w'.deleted = w.deleted ∨ ∃ currentId withId chatRoomId,
      a = .deleteMessage currentId withId chatRoomId ∧
      w'.deleted = w.deleted ++ [⟨currentId, chatRoomId, withId⟩] := by
  cases a with
  | sendMessage m =>
    simp only [step, Option.ite_none_left_eq_some, Option.some.injEq] at h
    obtain ⟨-, rfl⟩ := h
    exact .inl rfl
  | deleteMessage currentId withId chatRoomId =>
    simp only [step, Option.ite_none_right_eq_some, Option.some.injEq] at h
    obtain ⟨-, rfl⟩ := h
    exact .inr ⟨currentId, withId, chatRoomId, rfl, rfl⟩
  | updateMessage currentId readDate withId chatRoomId memberIds =>
    obtain rfl := Option.some.inj h
    exact .inl rfl
  | getDocument n =>
    obtain ⟨_, -, rfl⟩ := Option.map_eq_some_iff.mp h
    exact .inl rfl
  | commit userId =>
    obtain ⟨_, -, rfl⟩ := Option.map_eq_some_iff.mp h
    exact .inl rfl

theorem deleted_subset {a : MessageAction} (h : w.step a = some w') : w.deleted ⊆ w'.deleted := by
  rcases step_deleted h with hsame | ⟨_, _, _, -, hnew⟩
  · rw [hsame]
    exact List.Subset.refl _
  · rw [hnew]
    exact List.subset_append_left _ _

theorem sent_subset {a : MessageAction} (h : w.step a = some w') : w.sent ⊆ w'.sent := by
  rcases step_sent h with hsame | ⟨_, -, -, hnew⟩
  · rw [hsame]
    exact List.Subset.refl _
  · rw [hnew]
    exact List.subset_append_left _ _

end Step

/-- The copy is one that has been sent, and at most it has been marked as read. -/
def IsCopy (sent : List SendCall) (path : MessagePath) (d : MessageDictionary) : Prop :=
  ∃ m ∈ sent, path ∈ m.memberIds.map m.path ∧
    (d = m.data ∨ ∃ readDate, d = OutgoingMessages.markRead readDate m.data)

theorem isCopy_markRead {sent : List SendCall} {path : MessagePath} {d : MessageDictionary}
    (readDate : String) (h : IsCopy sent path d) :
    IsCopy sent path (OutgoingMessages.markRead readDate d) := by
  obtain ⟨m, hm, hpath, hd⟩ := h
  refine ⟨m, hm, hpath, .inr ⟨readDate, ?_⟩⟩
  rcases hd with rfl | ⟨_, rfl⟩ <;> rfl

theorem IsCopy.append {sent : List SendCall} {path : MessagePath} {d : MessageDictionary}
    (h : IsCopy sent path d) (m : SendCall) : IsCopy (sent ++ [m]) path d := by
  obtain ⟨m', hm', hrest⟩ := h
  exact ⟨m', List.mem_append_left _ hm', hrest⟩

theorem view_sendMessage {m : SendCall} {w : MessageWorld} {before after : SendState}
    (hview : view w.firestore m.senderId = before.messages)
    (h : OutgoingMessages.sendMessage m.messageId m.chatRoomId m.messageDictionary m.memberIds
      before = some after) :
    view (issue m.senderId m.writes w.firestore) m.senderId = after.messages := by
  obtain ⟨lastMessage, -, hafter⟩ := Option.bind_eq_some_iff.mp h
  rw [← Option.some.inj hafter, view_issue_self, hview, SendCall.writes, List.foldl_map]
  rfl

/-- A sent message has a path for each of its members. -/
def IsSent (sent : List SendCall) (path : MessagePath) : Prop :=
  ∃ m ∈ sent, path ∈ m.memberIds.map m.path

structure Consistent (w : MessageWorld) : Prop where
  fresh : Fresh w.firestore
  copies : Holds (IsCopy w.sent) w.firestore
  marks : ∀ userId path f, .update path f ∈ w.firestore.queue userId →
    ∃ readDate, f = OutgoingMessages.markRead readDate
  deletes : ∀ userId path, .delete path ∈ w.firestore.queue userId → path ∈ w.deleted
  deleted : ∀ path ∈ w.deleted, IsSent w.sent path ∧ Absent path.memberId path w.firestore
  comes : ∀ m ∈ w.sent, ∀ path ∈ m.memberIds.map m.path, path ∉ w.deleted →
    Comes m.senderId path w.firestore

theorem IsCopy.isSent {sent : List SendCall} {path : MessagePath} {d : MessageDictionary}
    (h : IsCopy sent path d) : IsSent sent path := by
  obtain ⟨m, hm, hpath, -⟩ := h
  exact ⟨m, hm, hpath⟩

theorem IsSent.messageId {sent : List SendCall} {path : MessagePath} (h : IsSent sent path) :
    path.messageId ∈ sent.map SendCall.messageId := by
  obtain ⟨m, hm, hpath⟩ := h
  obtain ⟨memberId, -, rfl⟩ := List.mem_map.mp hpath
  exact List.mem_map_of_mem hm

theorem setKeys_writes (m : SendCall) : setKeys m.writes = m.memberIds.map m.path := by
  simp [setKeys, SendCall.writes, List.filterMap_map]

theorem consistent_init : Consistent init where
  fresh := ⟨fun _ => List.nodup_nil, fun _ _ _ => rfl, fun _ _ _ h => absurd h List.not_mem_nil⟩
  copies := ⟨fun _ _ h => (by cases h), fun _ _ h => absurd h List.not_mem_nil⟩
  marks _ _ _ h := absurd h List.not_mem_nil
  deletes _ _ h := absurd h List.not_mem_nil
  deleted _ h := absurd h List.not_mem_nil
  comes _ h := absurd h List.not_mem_nil

variable {w w' : MessageWorld}

theorem Consistent.unknown (h : Consistent w) {path : MessagePath}
    (hpath : path.messageId ∉ w.sent.map SendCall.messageId) :
    w.firestore.store path = none ∧ ∀ userId, path ∉ setKeys (w.firestore.queue userId) := by
  refine ⟨?_, fun userId hset => ?_⟩
  · rw [← Option.not_isSome_iff_eq_none, Option.isSome_iff_exists]
    rintro ⟨d, hd⟩
    exact hpath (h.copies.store path d hd).isSent.messageId
  · obtain ⟨d, hd⟩ := mem_setKeys.mp hset
    exact hpath (IsCopy.isSent (h.copies.queue userId _ hd)).messageId

theorem Consistent.sendMessage (h : Consistent w) {m : SendCall} (hmembers : m.memberIds.Nodup)
    (hs : w.step (.sendMessage m) = some w') : Consistent w' := by
  simp only [step, Option.ite_none_left_eq_some, Option.some.injEq] at hs
  obtain ⟨hid, rfl⟩ := hs
  -- the id is new, and so are the paths of the members
  have hnew : ∀ path ∈ m.memberIds.map m.path,
      path.messageId ∉ w.sent.map SendCall.messageId := by
    intro path hpath
    obtain ⟨memberId, -, rfl⟩ := List.mem_map.mp hpath
    exact hid
  have hwrites : ∀ write ∈ m.writes, ∃ memberId ∈ m.memberIds,
      write = .set (m.path memberId) m.data := by
    intro write hwrite
    obtain ⟨memberId, hmember, rfl⟩ := List.mem_map.mp hwrite
    exact ⟨memberId, hmember, rfl⟩
  have hinjective : Function.Injective m.path := fun _ _ heq => congrArg MessagePath.memberId heq
  refine ⟨?_, ?_, ?_, ?_, ?_, ?_⟩
  · refine h.fresh.issue ?_ ?_ m.senderId
    · rw [setKeys_writes]
      exact hmembers.map hinjective
    · rw [setKeys_writes]
      exact fun path hpath => h.unknown (hnew path hpath)
  · have hcopies : Holds (IsCopy (w.sent ++ [m])) w.firestore := by
      refine ⟨fun path d hd => (h.copies.store path d hd).append m, fun userId write hwrite => ?_⟩
      cases write with
      | set path d => exact IsCopy.append (h.copies.queue userId _ hwrite) m
      | update path f =>
        obtain ⟨readDate, rfl⟩ := h.marks userId path f hwrite
        exact fun d hd => isCopy_markRead readDate hd
      | delete path => trivial
    refine hcopies.issue (fun write hwrite => ?_) m.senderId
    obtain ⟨memberId, hmember, rfl⟩ := hwrites write hwrite
    exact ⟨m, List.mem_append_right _ List.mem_cons_self, List.mem_map_of_mem hmember, .inl rfl⟩
  · intro userId path f hf
    rcases mem_queue_issue.mp hf with hold | ⟨-, hwrite⟩
    · exact h.marks userId path f hold
    · obtain ⟨_, -, heq⟩ := hwrites _ hwrite
      cases heq
  · intro userId path hdelete
    rcases mem_queue_issue.mp hdelete with hold | ⟨-, hwrite⟩
    · exact h.deletes userId path hold
    · obtain ⟨_, -, heq⟩ := hwrites _ hwrite
      cases heq
  · intro path hpath
    obtain ⟨hsent, habsent⟩ := h.deleted path hpath
    obtain ⟨m', hm', hmember⟩ := hsent
    refine ⟨⟨m', List.mem_append_left _ hm', hmember⟩, habsent.issue (fun d hd => ?_) m.senderId⟩
    have hset : path ∈ m.memberIds.map m.path := setKeys_writes m ▸ mem_setKeys.mpr ⟨d, hd⟩
    exact hnew path hset (IsSent.messageId ⟨m', hm', hmember⟩)
  · intro m' hm' path hpath hdeleted
    rcases List.mem_append.mp hm' with hold | hlast
    · exact (h.comes m' hold path hpath hdeleted).issue m.senderId m.writes
    · obtain rfl := List.mem_singleton.mp hlast
      rw [← setKeys_writes] at hpath
      obtain ⟨d, hd⟩ := mem_setKeys.mp hpath
      exact .inl (mem_setKeys.mpr ⟨d, mem_queue_issue.mpr (.inr ⟨rfl, hd⟩)⟩)

theorem Consistent.deleteMessage (h : Consistent w) {currentId : Uid} {withId chatRoomId : String}
    (hs : w.step (.deleteMessage currentId withId chatRoomId) = some w') : Consistent w' := by
  simp only [step, Option.ite_none_right_eq_some, Option.some.injEq] at hs
  obtain ⟨hseen, rfl⟩ := hs
  refine ⟨?_, ?_, ?_, ?_, ?_, ?_⟩
  · refine h.fresh.issue_of_forall (fun path d hd => ?_) currentId
    cases List.mem_singleton.mp hd
  · refine h.copies.issue (fun write hwrite => ?_) currentId
    obtain rfl := List.mem_singleton.mp hwrite
    trivial
  · intro userId path f hf
    rcases mem_queue_issue.mp hf with hold | ⟨-, hwrite⟩
    · exact h.marks userId path f hold
    · cases List.mem_singleton.mp hwrite
  · intro userId path hdelete
    rcases mem_queue_issue.mp hdelete with hold | ⟨-, hwrite⟩
    · exact List.mem_append_left _ (h.deletes userId path hold)
    · cases List.mem_singleton.mp hwrite
      exact List.mem_append_right _ List.mem_cons_self
  · intro path hpath
    rcases List.mem_append.mp hpath with hold | hlast
    · obtain ⟨hsent, habsent⟩ := h.deleted path hold
      refine ⟨hsent, habsent.issue (fun d hd => ?_) currentId⟩
      cases List.mem_singleton.mp hd
    · obtain rfl := List.mem_singleton.mp hlast
      obtain ⟨d, hd⟩ := Option.isSome_iff_exists.mp hseen
      exact ⟨(h.copies.view hd).isSent, h.fresh.absent hseen⟩
  · intro m hm path hpath hdeleted
    exact (h.comes m hm path hpath fun hold => hdeleted (List.mem_append_left _ hold)).issue _ _

theorem Consistent.getDocument (h : Consistent w) {n : ℕ}
    (hs : w.step (.getDocument n) = some w') : Consistent w' := by
  obtain ⟨⟨currentId, path, readDate⟩, -, rfl⟩ := Option.map_eq_some_iff.mp hs
  by_cases hseen : (view w.firestore currentId path).isSome
  · simp only [hseen, if_true]
    refine ⟨?_, ?_, ?_, ?_, ?_, ?_⟩
    · refine h.fresh.issue_of_forall (fun path d hd => ?_) currentId
      cases List.mem_singleton.mp hd
    · refine h.copies.issue (fun write hwrite => ?_) currentId
      obtain rfl := List.mem_singleton.mp hwrite
      exact fun d hd => isCopy_markRead readDate hd
    · intro userId path' f hf
      rcases mem_queue_issue.mp hf with hold | ⟨-, hwrite⟩
      · exact h.marks userId path' f hold
      · cases List.mem_singleton.mp hwrite
        exact ⟨readDate, rfl⟩
    · intro userId path' hdelete
      rcases mem_queue_issue.mp hdelete with hold | ⟨-, hwrite⟩
      · exact h.deletes userId path' hold
      · cases List.mem_singleton.mp hwrite
    · intro path' hpath
      obtain ⟨hsent, habsent⟩ := h.deleted path' hpath
      refine ⟨hsent, habsent.issue (fun d hd => ?_) currentId⟩
      cases List.mem_singleton.mp hd
    · intro m hm path' hpath hdeleted
      exact (h.comes m hm path' hpath hdeleted).issue _ _
  · simp only [hseen]
    exact ⟨h.fresh, h.copies, h.marks, h.deletes, h.deleted, h.comes⟩

theorem Consistent.commit (h : Consistent w) {userId : Uid}
    (hs : w.step (.commit userId) = some w') : Consistent w' := by
  obtain ⟨firestore, hcommit, rfl⟩ := Option.map_eq_some_iff.mp hs
  refine ⟨h.fresh.commit hcommit, h.copies.commit hcommit, ?_, ?_, ?_, ?_⟩
  · exact fun userId path f hf => h.marks userId path f (mem_queue_of_commit hcommit hf)
  · exact fun userId path hdelete => h.deletes userId path (mem_queue_of_commit hcommit hdelete)
  · intro path hpath
    obtain ⟨hsent, habsent⟩ := h.deleted path hpath
    exact ⟨hsent, habsent.commit hcommit⟩
  · intro m hm path hpath hdeleted
    refine (h.comes m hm path hpath hdeleted).commit (fun userId hdelete => ?_) hcommit
    exact hdeleted (h.deletes userId path hdelete)

/-- The members that a message is sent to are different ones. -/
def DistinctMembers : MessageAction → Prop
  | .sendMessage m => m.memberIds.Nodup
  | _ => True

theorem Consistent.step (h : Consistent w) {a : MessageAction} (ha : DistinctMembers a)
    (hs : w.step a = some w') : Consistent w' := by
  cases a with
  | sendMessage m => exact h.sendMessage ha hs
  | deleteMessage currentId withId chatRoomId => exact h.deleteMessage hs
  | updateMessage currentId readDate withId chatRoomId memberIds =>
    obtain rfl := Option.some.inj hs
    exact ⟨h.fresh, h.copies, h.marks, h.deletes, h.deleted, h.comes⟩
  | getDocument n => exact h.getDocument hs
  | commit userId => exact h.commit hs

/-- For every run of the devices, in any order: a copy has the data that have been sent, at most
marked as read; its owner does not see it again after deleting it; and when the queues are
done, the copies that exist are exactly those of the members who have not deleted theirs. -/
theorem copies_of_run (actions : List MessageAction) (w : MessageWorld)
    (hactions : ∀ a ∈ actions, DistinctMembers a) (hrun : Runs.exec step init actions = some w) :
    (∀ userId path d, view w.firestore userId path = some d ∨ w.firestore.store path = some d →
      IsCopy w.sent path d) ∧
    (∀ path ∈ w.deleted, view w.firestore path.memberId path = none) ∧
    ((∀ userId, w.firestore.queue userId = []) → ∀ path,
      (w.firestore.store path).isSome ↔ IsSent w.sent path ∧ path ∉ w.deleted) := by
  have hguard : Runs.Guarded step (fun _ a => DistinctMembers a) init actions :=
    Runs.guarded_of_forall hactions init
  have h : Consistent w := (Runs.always_of_guarded (I := Consistent)
    (fun _ _ _ hI ha hs => hI.step ha hs) consistent_init hguard).last hrun
  refine ⟨fun userId path d hd => ?_, fun path hpath => (h.deleted path hpath).2.1, ?_⟩
  · exact hd.elim h.copies.view (h.copies.store path d)
  · intro hdone path
    constructor
    · intro hsome
      obtain ⟨d, hd⟩ := Option.isSome_iff_exists.mp hsome
      refine ⟨(h.copies.store path d hd).isSent, fun hdeleted => ?_⟩
      have hgone := (h.deleted path hdeleted).2.1
      rw [view, hdone path.memberId] at hgone
      cases hd.symm.trans hgone
    · rintro ⟨⟨m, hm, hpath⟩, hdeleted⟩
      rcases h.comes m hm path hpath hdeleted with hset | hsome
      · rw [hdone m.senderId] at hset
        exact absurd hset List.not_mem_nil
      · exact hsome

/-- Alice writes to a room with Bob, who deletes his copy while hers is being marked. -/
def aliceToBob : SendCall := ⟨"alice", "room", "m1", ["alice", "bob"], { status := some kDELIVERED }⟩

def deletedWhileRead : List MessageAction :=
  [.sendMessage aliceToBob, .commit "alice", .commit "alice",
    .updateMessage "bob" "20190901000000" "m1" "room" ["alice", "bob"], .getDocument 1,
    .deleteMessage "bob" "m1" "room", .getDocument 0, .commit "bob", .commit "bob", .commit "bob"]

theorem copies_of_run_deleted : ∃ w, Runs.exec step init deletedWhileRead = some w ∧
    (∀ userId path d, view w.firestore userId path = some d ∨ w.firestore.store path = some d →
      IsCopy w.sent path d) ∧
    (∀ path ∈ w.deleted, view w.firestore path.memberId path = none) ∧
    ((∀ userId, w.firestore.queue userId = []) → ∀ path,
      (w.firestore.store path).isSome ↔ IsSent w.sent path ∧ path ∉ w.deleted) := by
  refine ⟨_, rfl, copies_of_run deletedWhileRead _ ?_ rfl⟩
  simp [deletedWhileRead, DistinctMembers, aliceToBob]

end MessageWorld

end LiChat
