import LiChat.General.QueryWrite
import LiChat.General.Rows
import LiChat.Recent

/-!
# Operations on the Recents of a room

All operations query the Recents of one room and then write: `Operation.callback`
is what an operation writes once its snapshot is there.
-/

namespace LiChat

/-- The arguments of `createRecent`. -/
structure CreateRecent where
  members : List Uid
  chatRoomId : String
  withUserUserName : String
  type : ChatType
  users : Option (List FUser)
  avatarOfGroup : Option String

/-- The loop of `createRecent` over its snapshot: whoever owns a Recent of the
room is taken off the list. -/
def removeOwners (members : List Uid) (snapshot : List Recent) : List Uid :=
  snapshot.foldl (fun tempMembers recent =>
    match recent.userId with
    | some currentUserId =>
      if tempMembers.contains currentUserId then tempMembers.erase currentUserId else tempMembers
    | none => tempMembers) members

theorem removeOwners_cons (members : List Uid) (r : Recent) (snapshot : List Recent) :
    removeOwners members (r :: snapshot) =
      removeOwners (r.userId.elim members members.erase) snapshot := by
  have hstep : (match r.userId with
      | some currentUserId =>
        if members.contains currentUserId then members.erase currentUserId else members
      | none => members) = r.userId.elim members members.erase := by
    cases r.userId with
    | none => rfl
    | some currentUserId =>
      by_cases h : currentUserId ∈ members
      · simp [h]
      · simp [h, List.erase_of_not_mem h]
  exact congrArg (removeOwners · snapshot) hstep

theorem removeOwners_sublist (members : List Uid) (snapshot : List Recent) :
    (removeOwners members snapshot).Sublist members := by
  induction snapshot generalizing members with
  | nil => exact List.Sublist.refl _
  | cons r snapshot ih =>
    rw [removeOwners_cons]
    cases r.userId with
    | none => exact ih members
    | some currentUserId => exact (ih _).trans List.erase_sublist

theorem mem_removeOwners {members : List Uid} (h : members.Nodup) (snapshot : List Recent) :
    (removeOwners members snapshot).Nodup ∧ ∀ u, u ∈ removeOwners members snapshot ↔
      u ∈ members ∧ ∀ r ∈ snapshot, r.userId ≠ some u := by
  induction snapshot generalizing members with
  | nil => simp [removeOwners, h]
  | cons r snapshot ih =>
    rw [removeOwners_cons]
    cases hr : r.userId with
    | none =>
      obtain ⟨hnodup, hmem⟩ := ih h
      refine ⟨hnodup, fun u => ?_⟩
      rw [List.forall_mem_cons]
      simpa [hr] using hmem u
    | some currentUserId =>
      obtain ⟨hnodup, hmem⟩ := ih (h.erase currentUserId)
      refine ⟨hnodup, fun u => ?_⟩
      rw [List.forall_mem_cons, hr]
      show u ∈ removeOwners (members.erase currentUserId) snapshot ↔ _
      rw [hmem u, h.mem_erase_iff]
      have hne : u ≠ currentUserId ↔ some currentUserId ≠ some u := by
        rw [ne_eq, ne_eq, Option.some.injEq, eq_comm]
      rw [hne]
      tauto

def withUser (currentId : Uid) (users : List FUser) (userId : Uid) : Option FUser :=
  if userId = currentId then users.getLast? else users.head?

/-- One new Recent, or none for a group without an avatar; `none` is the trap on
a private chat without users. -/
def createRecentItem (currentId : Uid) (date : String) (c : CreateRecent) (userId : Uid) :
    Option (List Write) :=
  match c.type with
  | .kPRIVATE => do
    let users ← c.users
    let withUser ← withUser currentId users userId
    some [.setData (fun recentId =>
      { recentId := recentId
        userId := some userId
        chatRoomId := c.chatRoomId
        members := c.members
        membersToPush := c.members
        withUserFullName := withUser.fullname
        withUserUserID := some withUser.objectId
        lastMessage := ""
        counter := 0
        date := date
        type := c.type
        avatar := withUser.avatar }) fun _ => rfl]
  | .kGROUP =>
    match c.avatarOfGroup with
    | none => some []
    | some avatar =>
      some [.setData (fun recentId =>
        { recentId := recentId
          userId := some userId
          chatRoomId := c.chatRoomId
          members := c.members
          membersToPush := c.members
          withUserFullName := c.withUserUserName
          withUserUserID := none
          lastMessage := ""
          counter := 0
          date := date
          type := c.type
          avatar := avatar }) fun _ => rfl]

/-- The callback of `createRecent`. -/
def createRecent (currentId : Uid) (date : String) (c : CreateRecent) (snapshot : List Recent) :
    Option (List Write) :=
  ((removeOwners c.members snapshot).mapM (createRecentItem currentId date c)).map List.flatten

/-- The Recent that `createRecent` makes for `userId`. -/
structure CreatedFor (c : CreateRecent) (userId : Uid) (r : Recent) : Prop where
  userId : r.userId = some userId
  chatRoomId : r.chatRoomId = c.chatRoomId
  members : r.members = c.members
  membersToPush : r.membersToPush = c.members
  type : r.type = c.type
  lastMessage : r.lastMessage = ""
  counter : r.counter = 0

/-- The write makes such a Recent, whatever id it receives. -/
def Write.Creates (c : CreateRecent) (userId : Uid) : Write → Prop
  | .setData recent _ => ∀ id, CreatedFor c userId (recent id)
  | _ => False

/-- A private chat with users, or a group with an avatar. -/
def CreateRecent.Complete (c : CreateRecent) : Prop :=
  match c.type with
  | .kPRIVATE => ∃ users, c.users = some users ∧ users ≠ []
  | .kGROUP => c.avatarOfGroup.isSome

theorem createRecentItem_cases {currentId : Uid} {date : String} {c : CreateRecent} {userId : Uid}
    {writes : List Write} (h : createRecentItem currentId date c userId = some writes) :
    (∃ w, writes = [w] ∧ w.Creates c userId) ∨ (writes = [] ∧ ¬ c.Complete) := by
  unfold createRecentItem at h
  unfold CreateRecent.Complete
  cases htype : c.type with
  | kPRIVATE =>
    simp only [htype, Option.bind_eq_bind, Option.bind_eq_some_iff] at h
    obtain ⟨users, -, withUser, -, h⟩ := h
    obtain rfl := Option.some.inj h
    exact Or.inl ⟨_, rfl, fun id => ⟨rfl, rfl, rfl, rfl, htype.symm ▸ rfl, rfl, rfl⟩⟩
  | kGROUP =>
    simp only [htype] at h
    cases havatar : c.avatarOfGroup with
    | none =>
      simp only [havatar, Option.some.injEq] at h
      exact Or.inr ⟨h.symm, by simp⟩
    | some avatar =>
      simp only [havatar, Option.some.injEq] at h
      exact Or.inl ⟨_, h.symm, fun id => ⟨rfl, rfl, rfl, rfl, htype.symm ▸ rfl, rfl, rfl⟩⟩

theorem createRecentItem_isSome (currentId : Uid) (date : String) {c : CreateRecent}
    (hc : c.Complete) (userId : Uid) : ∃ writes, createRecentItem currentId date c userId = some writes := by
  unfold CreateRecent.Complete at hc
  unfold createRecentItem
  cases htype : c.type with
  | kPRIVATE =>
    rw [htype] at hc
    obtain ⟨users, husers, hne⟩ := hc
    have hlast := List.getLast?_eq_some_getLast hne
    have hhead := List.head?_eq_some_head hne
    obtain ⟨user, huser⟩ : ∃ user, withUser currentId users userId = some user := by
      unfold withUser
      split_ifs
      · exact ⟨_, hlast⟩
      · exact ⟨_, hhead⟩
    simp only [husers, Option.bind_eq_bind, Option.bind_some, huser]
    exact ⟨_, rfl⟩
  | kGROUP =>
    rw [htype] at hc
    obtain ⟨avatar, havatar⟩ := Option.isSome_iff_exists.mp hc
    simp only [havatar]
    exact ⟨_, rfl⟩

theorem mapM_createRecentItem {currentId : Uid} {date : String} {c : CreateRecent} (l : List Uid)
    {writes : List (List Write)} (h : l.mapM (createRecentItem currentId date c) = some writes) :
    ∃ users, users.Sublist l ∧ (c.Complete → users = l) ∧
      List.Forall₂ (fun u w => Write.Creates c u w) users writes.flatten := by
  induction l generalizing writes with
  | nil =>
    obtain rfl : [] = writes := by simpa using h
    exact ⟨[], List.Sublist.slnil, fun _ => rfl, List.Forall₂.nil⟩
  | cons u l ih =>
    simp only [List.mapM_cons, Option.bind_eq_bind, Option.bind_eq_some_iff] at h
    obtain ⟨item, hitem, rest, hrest, h⟩ := h
    obtain rfl : item :: rest = writes := Option.some.inj h
    obtain ⟨users, hsub, hall, hforall⟩ := ih hrest
    -- a group without an avatar gets no Recent, but the loop goes on
    rcases createRecentItem_cases hitem with ⟨w, rfl, hw⟩ | ⟨rfl, hnot⟩
    · exact ⟨u :: users, hsub.cons_cons u, fun hc => by rw [hall hc], List.Forall₂.cons hw hforall⟩
    · exact ⟨users, hsub.cons u, fun hc => absurd hc hnot, hforall⟩

/-- `createRecent` makes one Recent for every member without one; only a group
without an avatar goes without. -/
theorem createRecent_creates {currentId : Uid} {date : String} {c : CreateRecent}
    {snapshot : List Recent} {writes : List Write}
    (h : createRecent currentId date c snapshot = some writes) :
    ∃ users, users.Sublist (removeOwners c.members snapshot) ∧
      (c.Complete → users = removeOwners c.members snapshot) ∧
      List.Forall₂ (fun u w => Write.Creates c u w) users writes := by
  obtain ⟨items, hitems, rfl⟩ := Option.map_eq_some_iff.mp h
  exact mapM_createRecentItem _ hitems

theorem createRecent_isSome (currentId : Uid) (date : String) {c : CreateRecent}
    (hc : c.Complete) (snapshot : List Recent) :
    ∃ writes, createRecent currentId date c snapshot = some writes := by
  have hitems : ∀ l : List Uid, ∃ items, l.mapM (createRecentItem currentId date c) = some items := by
    intro l
    induction l with
    | nil => exact ⟨[], rfl⟩
    | cons u l ih =>
      obtain ⟨item, hitem⟩ := createRecentItem_isSome currentId date hc u
      obtain ⟨items, hitems⟩ := ih
      exact ⟨item :: items, by simp [List.mapM_cons, hitem, hitems]⟩
  obtain ⟨items, hitems⟩ := hitems (removeOwners c.members snapshot)
  exact ⟨items.flatten, by rw [createRecent, hitems, Option.map_some]⟩

theorem all_foldl_creates {c : CreateRecent} {users : List Uid} {writes : List Write}
    (h : List.Forall₂ (fun u w => Write.Creates c u w) users writes) (s : Recents) :
    ∃ created, (writes.foldl Recents.apply s).all = s.all ++ created ∧
      List.Forall₂ (CreatedFor c) users created := by
  induction h generalizing s with
  | nil => exact ⟨[], by simp, List.Forall₂.nil⟩
  | @cons u w users writes hw _ ih =>
    cases w with
    | setData recent self =>
      obtain ⟨created, hall, hcreated⟩ := ih (s.apply (.setData recent self))
      refine ⟨recent s.next :: created, ?_, List.Forall₂.cons (hw s.next) hcreated⟩
      rw [List.foldl_cons, hall, Recents.all_setData, List.append_assoc, List.singleton_append]
    | updateData recentId values => exact hw.elim
    | delete recentId => exact hw.elim

theorem existsUnique_created {c : CreateRecent} {users : List Uid} {created : List Recent}
    (h : List.Forall₂ (CreatedFor c) users created) (hnodup : users.Nodup) {u : Uid} (hu : u ∈ users) :
    ∃! r, r ∈ created ∧ r.userId = some u := by
  induction h with
  | nil => exact absurd hu List.not_mem_nil
  | @cons v r users created hr hrest ih =>
    obtain ⟨hv, hnodup⟩ := List.nodup_cons.mp hnodup
    rcases List.mem_cons.mp hu with rfl | hu
    · refine ⟨r, ⟨List.mem_cons_self, hr.userId⟩, ?_⟩
      rintro r' ⟨hr', huser⟩
      rcases List.mem_cons.mp hr' with rfl | hr'
      · rfl
      · obtain ⟨v, hmem, hcreated⟩ := Rows.exists_of_forall₂ hrest hr'
        obtain rfl : v = u := Option.some.inj (hcreated.userId.symm.trans huser)
        exact absurd hmem hv
    · obtain ⟨r', ⟨hr', huser⟩, hunique⟩ := ih hnodup hu
      refine ⟨r', ⟨List.mem_cons_of_mem r hr', huser⟩, ?_⟩
      rintro r'' ⟨hr'', huser'⟩
      rcases List.mem_cons.mp hr'' with rfl | hr''
      · obtain rfl : v = u := Option.some.inj (hr.userId.symm.trans huser')
        exact absurd hu hv
      · exact hunique r'' ⟨hr'', huser'⟩

def privateChatRoomId (userId1 userId2 : Uid) : String :=
  if userId1 < userId2 then userId1 ++ userId2 else userId2 ++ userId1

def startPrivateChat (user1 user2 : FUser) : CreateRecent where
  members := [user1.objectId, user2.objectId]
  chatRoomId := privateChatRoomId user1.objectId user2.objectId
  withUserUserName := ""
  type := .kPRIVATE
  users := some [user1, user2]
  avatarOfGroup := none

def restartRecentChat (currentUser : FUser) (recent : Recent) : CreateRecent :=
  match recent.type with
  | .kPRIVATE =>
    { members := recent.membersToPush
      chatRoomId := recent.chatRoomId
      withUserUserName := currentUser.firstname
      type := .kPRIVATE
      users := some [currentUser]
      avatarOfGroup := none }
  | .kGROUP =>
    { members := recent.membersToPush
      chatRoomId := recent.chatRoomId
      withUserUserName := recent.withUserFullName
      type := .kGROUP
      users := none
      avatarOfGroup := some recent.avatar }

section Restart
variable (currentUser : FUser) (recent : Recent)

@[simp] theorem restartRecentChat_chatRoomId :
    (restartRecentChat currentUser recent).chatRoomId = recent.chatRoomId := by
  unfold restartRecentChat
  split <;> rfl

@[simp] theorem restartRecentChat_members :
    (restartRecentChat currentUser recent).members = recent.membersToPush := by
  unfold restartRecentChat
  split <;> rfl

@[simp] theorem restartRecentChat_type :
    (restartRecentChat currentUser recent).type = recent.type := by
  unfold restartRecentChat
  split
  · next htype => exact htype.symm
  · next htype => exact htype.symm

theorem restartRecentChat_complete : (restartRecentChat currentUser recent).Complete := by
  unfold restartRecentChat
  split
  · exact ⟨[currentUser], rfl, List.cons_ne_nil _ _⟩
  · exact rfl

end Restart

structure Group where
  groupId : String
  name : String
  ownerId : Uid
  members : List Uid
  membersToPush : List Uid
  avatar : String
  deriving DecidableEq, Repr

/-- `Group.init` -/
def Group.make (groupId subject : String) (ownerId : Uid) (members : List Uid) (avatar : String) :
    Group :=
  ⟨groupId, subject, ownerId, members, members, avatar⟩

def startGroupChat (group : Group) : CreateRecent where
  members := group.members
  chatRoomId := group.groupId
  withUserUserName := group.name
  type := .kGROUP
  users := none
  avatarOfGroup := some group.avatar

def createRecentForNewMembers (groupId groupName : String) (membersToPush : List Uid)
    (avatar : String) : CreateRecent where
  members := membersToPush
  chatRoomId := groupId
  withUserUserName := groupName
  type := .kGROUP
  users := none
  avatarOfGroup := some avatar

inductive Operation where
  | createRecent (currentId : Uid) (date : String) (c : CreateRecent)
  | updateRecents (currentId : Uid) (date chatRoomId lastMessage : String)
  | clearRecentCouter (currentId : Uid) (chatRoomId : String)
  | updateExistingRecentWithNewValues (chatRoomId : String) (values : RecentValues)
  | getRecentsFor (chatRoomId : String)

/-- What `updateRecentItem` sets, from the Recent that its query returned. -/
def updateRecentValues (currentId : Uid) (date lastMessage : String) (recent : Recent) :
    RecentValues where
  lastMessage := some lastMessage
  counter := some (if recent.userId ≠ some currentId then recent.counter + 1 else recent.counter)
  date := some date

def updateRecentItem (currentId : Uid) (date lastMessage : String) (recent : Recent) : Write :=
  .updateData recent.recentId (updateRecentValues currentId date lastMessage recent)

def clearRecentCounterItem (recent : Recent) : Write :=
  .updateData recent.recentId { counter := some 0 }

namespace Operation

def chatRoomId : Operation → String
  | createRecent _ _ c => c.chatRoomId
  | updateRecents _ _ chatRoomId _ => chatRoomId
  | clearRecentCouter _ chatRoomId => chatRoomId
  | updateExistingRecentWithNewValues chatRoomId _ => chatRoomId
  | getRecentsFor chatRoomId => chatRoomId

/-- What the operation writes when its query has returned `snapshot`; a trap in
`createRecentItem` happens at the first new Recent and writes nothing. -/
def callback (op : Operation) (snapshot : List Recent) : List Write :=
  match op with
  | createRecent currentId date c => (LiChat.createRecent currentId date c snapshot).getD []
  | updateRecents currentId date _ lastMessage =>
    snapshot.map (updateRecentItem currentId date lastMessage)
  | clearRecentCouter currentId _ =>
    (snapshot.filter fun r => r.userId = some currentId).map clearRecentCounterItem
  | updateExistingRecentWithNewValues _ values =>
    snapshot.map fun r => .updateData r.recentId values
  | getRecentsFor _ => snapshot.map fun r => .delete r.recentId

theorem callback_createRecent (currentId : Uid) (date : String) {c : CreateRecent} (hc : c.Complete)
    (snapshot : List Recent) : LiChat.createRecent currentId date c snapshot =
      some ((createRecent currentId date c).callback snapshot) := by
  obtain ⟨writes, hwrites⟩ := createRecent_isSome currentId date hc snapshot
  rw [callback, hwrites, Option.getD_some]

/-- The operation run to completion, without interference. -/
def run (op : Operation) (s : Recents) : Recents :=
  (op.callback (s.inRoom op.chatRoomId)).foldl Recents.apply s

theorem all_run_createRecent (currentId : Uid) (date : String) (c : CreateRecent) (s : Recents) :
    ∃ users created, users.Sublist (removeOwners c.members (s.inRoom c.chatRoomId)) ∧
      (c.Complete → users = removeOwners c.members (s.inRoom c.chatRoomId)) ∧
      ((createRecent currentId date c).run s).all = s.all ++ created ∧
      List.Forall₂ (CreatedFor c) users created := by
  simp only [run, callback, chatRoomId]
  cases h : LiChat.createRecent currentId date c (s.inRoom c.chatRoomId) with
  | none =>
    refine ⟨[], [], List.nil_sublist _, fun hc => ?_, by simp, List.Forall₂.nil⟩
    obtain ⟨writes, hwrites⟩ := createRecent_isSome currentId date hc (s.inRoom c.chatRoomId)
    rw [h] at hwrites
    exact absurd hwrites nofun
  | some writes =>
    obtain ⟨users, hsub, hcomplete, hforall⟩ := createRecent_creates h
    obtain ⟨created, hall, hcreated⟩ := all_foldl_creates hforall s
    exact ⟨users, created, hsub, hcomplete, hall, hcreated⟩

/-- Run alone, `createRecent` gives every member exactly one Recent of the room, where no
user has two before. -/
theorem existsUnique_run_createRecent (currentId : Uid) (date : String) {c : CreateRecent}
    (hc : c.Complete) (hnodup : c.members.Nodup) {s : Recents}
    (hone : ∀ r ∈ s.inRoom c.chatRoomId, ∀ r' ∈ s.inRoom c.chatRoomId, ∀ u,
      r.userId = some u → r'.userId = some u → r = r') {u : Uid} (hu : u ∈ c.members) :
    ∃! r, r ∈ ((createRecent currentId date c).run s).inRoom c.chatRoomId ∧ r.userId = some u := by
  obtain ⟨users, created, -, hcomplete, hall, hcreated⟩ := all_run_createRecent currentId date c s
  obtain ⟨hmissing, hmem⟩ := mem_removeOwners hnodup (s.inRoom c.chatRoomId)
  rw [← hcomplete hc] at hmissing hmem
  have hroom : ∀ r, r ∈ ((createRecent currentId date c).run s).inRoom c.chatRoomId ↔
      r ∈ s.inRoom c.chatRoomId ∨ r ∈ created := by
    intro r
    rw [Recents.mem_inRoom, Recents.mem_inRoom, hall, List.mem_append, or_and_right]
    refine or_congr_right (and_iff_left_of_imp fun hr => ?_)
    obtain ⟨v, -, hv⟩ := Rows.exists_of_forall₂ hcreated hr
    exact hv.chatRoomId
  simp only [hroom]
  by_cases howner : ∃ r ∈ s.inRoom c.chatRoomId, r.userId = some u
  · -- no Recent is created for an owner
    obtain ⟨r, hr, huser⟩ := howner
    refine ⟨r, ⟨Or.inl hr, huser⟩, ?_⟩
    rintro r' ⟨hold | hnew, huser'⟩
    · exact hone r' hold r hr u huser' huser
    · obtain ⟨v, hv, hcreatedFor⟩ := Rows.exists_of_forall₂ hcreated hnew
      obtain rfl : v = u := Option.some.inj (hcreatedFor.userId.symm.trans huser')
      exact absurd huser (((hmem v).mp hv).2 r hr)
  · push Not at howner
    obtain ⟨r, ⟨hr, huser⟩, hunique⟩ :=
      existsUnique_created hcreated hmissing ((hmem u).mpr ⟨hu, howner⟩)
    refine ⟨r, ⟨Or.inr hr, huser⟩, ?_⟩
    rintro r' ⟨hold | hnew, huser'⟩
    · exact absurd huser' (howner r' hold)
    · exact hunique r' ⟨hnew, huser'⟩

theorem all_foldl_inRoom (s : Recents) (room : String) (p : Recent → Bool)
    (v : Recent → RecentValues) :
    ((((s.inRoom room).filter p).map fun r => Write.updateData r.recentId (v r)).foldl
      Recents.apply s).all =
      s.all.map fun d => if d.chatRoomId = room ∧ p d then d.updateData (v d) else d := by
  have hsub : ((s.inRoom room).filter p).Sublist s.all :=
    List.filter_sublist.trans List.filter_sublist
  rw [Recents.all_foldl_updateData v hsub]
  apply List.map_congr_left
  intro d hd
  have hmem : d ∈ (s.inRoom room).filter p ↔ d.chatRoomId = room ∧ p d := by
    rw [List.mem_filter, Recents.mem_inRoom]
    tauto
  exact if_congr hmem rfl rfl

theorem all_run_updateRecents (currentId : Uid) (date room lastMessage : String) (s : Recents) :
    ((updateRecents currentId date room lastMessage).run s).all =
      s.all.map fun d => if d.chatRoomId = room
        then d.updateData (updateRecentValues currentId date lastMessage d) else d := by
  have h := all_foldl_inRoom s room (fun _ => true) (updateRecentValues currentId date lastMessage)
  simp only [List.filter_true, and_true] at h
  exact h

theorem all_run_clearRecentCouter (currentId : Uid) (room : String) (s : Recents) :
    ((clearRecentCouter currentId room).run s).all =
      s.all.map fun d => if d.chatRoomId = room ∧ d.userId = some currentId
        then d.updateData { counter := some 0 } else d := by
  have h := all_foldl_inRoom s room (fun r => r.userId = some currentId)
    fun _ => { counter := some 0 }
  simp only [decide_eq_true_eq] at h
  exact h

theorem all_run_updateExistingRecentWithNewValues (room : String) (values : RecentValues)
    (s : Recents) : ((updateExistingRecentWithNewValues room values).run s).all =
      s.all.map fun d => if d.chatRoomId = room then d.updateData values else d := by
  have h := all_foldl_inRoom s room (fun _ => true) fun _ => values
  simp only [List.filter_true, and_true] at h
  exact h

theorem all_foldl_delete (deleted : List Recent) (s : Recents) :
    ((deleted.map fun r => Write.delete r.recentId).foldl Recents.apply s).all =
      s.all.filter fun d => d.recentId ∉ deleted.map Recent.recentId := by
  induction deleted generalizing s with
  | nil => simp
  | cons r deleted ih =>
    rw [List.map_cons, List.foldl_cons, ih, Recents.all_delete, List.filter_filter]
    apply List.filter_congr
    intro d _
    rw [List.map_cons]
    by_cases hid : d.recentId = r.recentId
    · simp [hid]
    · simp [hid, List.mem_cons]

theorem all_run_getRecentsFor (room : String) (s : Recents) :
    ((getRecentsFor room).run s).all = s.all.filter fun d => d.chatRoomId ≠ room := by
  refine (all_foldl_delete (s.inRoom room) s).trans (List.filter_congr fun d hd => ?_)
  have hids : d.recentId ∈ (s.inRoom room).map Recent.recentId ↔ d.chatRoomId = room := by
    constructor
    · intro hmem
      obtain ⟨r, hr, hid⟩ := List.mem_map.mp hmem
      obtain ⟨hr, hroom⟩ := Recents.mem_inRoom.mp hr
      rw [Recents.eq_of_recentId_eq hd hr hid.symm]
      exact hroom
    · intro hroom
      exact List.mem_map_of_mem (Recents.mem_inRoom.mpr ⟨hd, hroom⟩)
  simp [hids]

end Operation

def recentSystem {ι : Type*} (op : ι → Operation) : QueryWrite.System ι Recents Write where
  callback i s := (op i).callback (s.inRoom (op i).chatRoomId)
  apply := Recents.apply

theorem recentSystem_atomic {ι : Type*} (op : ι → Operation) (s : Recents) (i : ι) :
    (recentSystem op).atomic s i = (op i).run s := rfl

end LiChat
