import LiChat.ChatSend
import LiChat.RecentMembers

/-!
# Clients at work

Every user has a client that keeps what its screens have read, and Firestore
requests whose answers are still to come.  A step is an action of one client: a
tap, a listener that fires, or a request that goes on.
-/

namespace LiChat

/-- Messages and calls of `updateRecents` of one room only. -/
def SendState.StaysIn (chatRoomId : String) (w w' : SendState) : Prop :=
  (∀ path, path.chatRoomId ≠ chatRoomId → w'.messages path = w.messages path) ∧
    ∃ calls, w'.updateRecents = w.updateRecents ++ calls ∧ ∀ call ∈ calls, call.1 = chatRoomId

/-- Whatever its outcome, the upload goes on in the room. -/
def Upload.StaysIn (chatRoomId : String) (upload : Upload) : Prop :=
  ∀ link w w', upload.completion link w = some w' → w.StaysIn chatRoomId w'

namespace ChatViewController
variable {vc : ChatViewController} {uuid : String} {date : Date} {w w' : SendState}

theorem send_staysIn {data : MessageDictionary} {message : String}
    (h : vc.send uuid data message w = some w') : w.StaysIn vc.chatRoomId w' := by
  obtain ⟨v, hv, h⟩ := Option.bind_eq_some_iff.mp h
  obtain ⟨text, -, hv⟩ := Option.bind_eq_some_iff.mp hv
  obtain rfl := Option.some.inj h
  obtain rfl := Option.some.inj hv
  refine ⟨fun path hpath => ?_, [(vc.chatRoomId, text)], rfl, fun call hcall => ?_⟩
  · exact (MessageStore.setDataFor_apply ..).trans (if_neg fun h => hpath h.2.1)
  · rw [List.mem_singleton.mp hcall]

theorem staysIn_self (chatRoomId : String) (w : SendState) : w.StaysIn chatRoomId w :=
  ⟨fun _ _ => rfl, [], (List.append_nil _).symm, fun _ h => absurd h List.not_mem_nil⟩

theorem upload_staysIn {upload : Upload} (hnone : ∀ w, upload.completion none w = some w)
    (hsome : ∀ link w w', upload.completion (some link) w = some w' →
      ∃ data message, vc.send uuid data message w = some w') : upload.StaysIn vc.chatRoomId := by
  intro link w w' h
  cases link with
  | none =>
    rw [hnone] at h
    obtain rfl := Option.some.inj h
    exact staysIn_self _ _
  | some link =>
    obtain ⟨data, message, h⟩ := hsome link w w' h
    exact send_staysIn h

theorem sendMessage_staysIn {a : SendArguments} {upload : Option Upload}
    (h : vc.sendMessage uuid date a w = some (w', upload)) :
    w.StaysIn vc.chatRoomId w' ∧ ∀ up, upload = some up → up.StaysIn vc.chatRoomId := by
  obtain ⟨user, -, h⟩ := Option.bind_eq_some_iff.mp h
  simp only at h
  split at h
  · -- picture
    obtain ⟨rfl, rfl⟩ := Prod.mk.inj (Option.some.inj h)
    refine ⟨staysIn_self _ _, fun up hup => ?_⟩
    obtain rfl := Option.some.inj hup
    exact upload_staysIn (fun _ => rfl) fun link w w' h => ⟨_, _, h⟩
  · -- video
    obtain ⟨videoData, -, h⟩ := Option.bind_eq_some_iff.mp h
    obtain ⟨rfl, rfl⟩ := Prod.mk.inj (Option.some.inj h)
    refine ⟨staysIn_self _ _, fun up hup => ?_⟩
    obtain rfl := Option.some.inj hup
    apply upload_staysIn (fun _ => rfl)
    intro link w w' h
    obtain ⟨thumbNail, -, h⟩ := Option.bind_eq_some_iff.mp h
    exact ⟨_, _, h⟩
  · -- audio
    obtain ⟨rfl, rfl⟩ := Prod.mk.inj (Option.some.inj h)
    refine ⟨staysIn_self _ _, fun up hup => ?_⟩
    obtain rfl := Option.some.inj hup
    exact upload_staysIn (fun _ => rfl) fun link w w' h => ⟨_, _, h⟩
  · -- location
    obtain ⟨⟨lat, long⟩, -, h⟩ := Option.bind_eq_some_iff.mp h
    obtain ⟨rfl, rfl⟩ := Prod.mk.inj (Option.some.inj h)
    exact ⟨staysIn_self _ _, fun up hup => absurd hup nofun⟩
  · -- text
    obtain ⟨data, -, h⟩ := Option.bind_eq_some_iff.mp h
    obtain ⟨text, -, h⟩ := Option.bind_eq_some_iff.mp h
    obtain ⟨w₁, hsend, h⟩ := Option.bind_eq_some_iff.mp h
    obtain ⟨rfl, rfl⟩ := Prod.mk.inj (Option.some.inj h)
    exact ⟨send_staysIn hsend, fun up hup => absurd hup nofun⟩

/-- A location alone stores nothing and starts no upload. -/
theorem sendMessage_location {text location : Option String} (hlocation : location.isSome)
    {upload : Option Upload}
    (h : vc.sendMessage uuid date { text := text, location := location } w = some (w', upload)) :
    w'.messages = w.messages ∧ w'.updateRecents = w.updateRecents ∧ upload = none := by
  obtain ⟨user, -, h⟩ := Option.bind_eq_some_iff.mp h
  obtain ⟨location, rfl⟩ := Option.isSome_iff_exists.mp hlocation
  obtain ⟨⟨lat, long⟩, -, h⟩ := Option.bind_eq_some_iff.mp h
  obtain ⟨rfl, rfl⟩ := Prod.mk.inj (Option.some.inj h)
  exact ⟨rfl, rfl, rfl⟩

end ChatViewController

/-- A profile of the user `u`. -/
abbrev ProfileOf (u : Uid) := {user : FUser // user.objectId = u}

/-- The argument of `updateCurrentUserInFirestore`: the keys that it names. -/
structure UserValues where
  blockedUsers : Option (List Uid) := none
  isOnline : Option Bool := none
  pushId : Option String := none
  firstname : Option String := none
  lastname : Option String := none
  fullname : Option String := none
  avatar : Option String := none

/-- `setValuesForKeys` on a profile. -/
def ProfileOf.setValuesForKeys {u : Uid} (values : UserValues) (p : ProfileOf u) : ProfileOf u :=
  ⟨{ p.1 with
    blockedUsers := values.blockedUsers.getD p.1.blockedUsers
    isOnline := values.isOnline.getD p.1.isOnline
    pushId := values.pushId.or p.1.pushId
    firstname := values.firstname.getD p.1.firstname
    lastname := values.lastname.getD p.1.lastname
    fullname := values.fullname.getD p.1.fullname
    avatar := values.avatar.getD p.1.avatar }, p.2⟩

structure ProfileCopy where
  user : FUser
  readAt : ℕ

structure RoomScreen where
  chatRoomId : String
  memberIds : List Uid
  membersToPush : List Uid

/-- The screen at work, with what it reads from the device. -/
def RoomScreen.viewController (chat : RoomScreen) (device : ChatViewController)
    (currentUser : FUser) : ChatViewController :=
  { device with
    chatRoomId := chat.chatRoomId
    memberIds := chat.memberIds
    membersToPush := chat.membersToPush
    currentUser := some currentUser }

/-- A request of the client of `u`, or an answer whose handler has not run. -/
inductive TaskBody (u : Uid) where
  | loadUsers (ids : List Uid)
  | usersRead (copies : List ProfileCopy)
  | updateUser (withValues : UserValues) (userObject : ProfileOf u)
  | userUpdated (userObject : ProfileOf u)
  | upload (chatRoomId : String) (upload : Upload) (staysIn : upload.StaysIn chatRoomId)
  | query (op : Operation)
  | write (op : Operation) (todo : List Write)
  | getMessage (path : MessagePath) (readDate : String)
  | updateMessage (path : MessagePath) (readDate : String)

/-- A task and the time at which the action behind it was taken. -/
structure Task (u : Uid) where
  begunAt : ℕ
  body : TaskBody u

/-- The client of `u`: the profile in UserDefaults, the profiles on its screens, the
rows of the chat list, the open chats, and the tasks under way. -/
structure Client (u : Uid) where
  currentUser : ProfileOf u
  copies : List ProfileCopy
  rows : List Recent
  chats : List RoomScreen
  tasks : List (Task u)

structure World where
  time : ℕ
  users : (u : Uid) → ProfileOf u
  recents : Recents
  messages : MessageStore
  client : (u : Uid) → Client u

/-- What a step of the client of `u` can change. -/
structure View (u : Uid) where
  profile : ProfileOf u
  recents : Recents
  messages : MessageStore
  client : Client u

namespace View
variable {u : Uid} (now : ℕ) (v : View u)

def start (bodies : List (TaskBody u)) : View u :=
  { v with
    client := { v.client with tasks := v.client.tasks ++ bodies.map fun body => ⟨now, body⟩ } }

def updateCurrentUserInFirestore (withValues : UserValues) : View u :=
  v.start now [.updateUser withValues (v.client.currentUser.setValuesForKeys withValues)]

/-- The user lists, the profile of a row and `getUsersFromFirestore` all read
profiles of the User collection. -/
def loadUsers (ids : List Uid) : View u := v.start now [.loadUsers ids]

/-- A tap on a user in the contacts or the user list, or on the chat button of a
profile.  User ids have one length. -/
def startChat (i : ℕ) (date : String) : Option (View u) := do
  let copy ← v.client.copies[i]?
  if checkBlockedStatus u copy.user then some v
  else if u.length = copy.user.objectId.length then
    let currentUser := v.client.currentUser.1
    let chat : RoomScreen :=
      ⟨privateChatRoomId currentUser.objectId copy.user.objectId, [u, copy.user.objectId],
        [u, copy.user.objectId]⟩
    let v := v.start now
      [.query (.createRecent u date (startPrivateChat currentUser copy.user))]
    some { v with client := { v.client with chats := v.client.chats ++ [chat] } }
  else none

def blockButtonPressed (i : ℕ) : Option (View u) := do
  let copy ← v.client.copies[i]?
  let userId := copy.user.objectId
  let currentBlockedIds := v.client.currentUser.1.blockedUsers
  let blocked := if currentBlockedIds.contains userId then currentBlockedIds.erase userId
    else currentBlockedIds ++ [userId]
  let v := v.updateCurrentUserInFirestore now { blockedUsers := some blocked }
  some (v.start now [.query (.getRecentsFor (privateChatRoomId u userId))])

def unblock (userIdToUnblock : Uid) : Option (View u) :=
  let tempBlockedUsers := v.client.currentUser.1.blockedUsers
  if tempBlockedUsers.contains userIdToUnblock then
    some (v.updateCurrentUserInFirestore now
      { blockedUsers := some (tempBlockedUsers.erase userIdToUnblock) })
  else none

/-- The listener of the chat list; the order of the rows is of no account here. -/
def recentListner : View u :=
  { v with
    client := { v.client with
      rows := v.recents.all.filter fun r => r.userId = some u ∧ r.lastMessage ≠ "" } }

def didSelectRow (i : ℕ) (date : String) : Option (View u) := do
  let recent ← v.client.rows[i]?
  let chat : RoomScreen := ⟨recent.chatRoomId, recent.members, recent.membersToPush⟩
  let v := v.start now
    [.query (.createRecent u date (restartRecentChat v.client.currentUser.1 recent))]
  some { v with client := { v.client with chats := v.client.chats ++ [chat] } }

def updatePushMembers (i : ℕ) : Option (View u) := do
  let recent ← v.client.rows[i]?
  some (v.start now [.query (.updateExistingRecentWithNewValues recent.chatRoomId
    { membersToPush := some (ChatStore.toggledMembersToPush u recent) })])

def deleteRow (i : ℕ) : Option (View u) := do
  let recent ← v.client.rows[i]?
  some { v with
    recents := v.recents.apply (.delete recent.recentId)
    client := { v.client with rows := v.client.rows.eraseIdx i } }

def sendState : SendState := ⟨v.messages, [], [], [], 0, 0⟩

/-- What a send leaves behind: its messages, and its calls of `updateRecents`. -/
def afterSend (date : String) (s : SendState) : View u :=
  { v with messages := s.messages }.start now
    (s.updateRecents.map fun (room, lastMessage) =>
      .query (.updateRecents u date room lastMessage))

def sendMessage (k : ℕ) (device : ChatViewController) (uuid : String) (date : Date)
    (recentDate : String) (a : SendArguments) : Option (View u) := do
  let chat ← v.client.chats[k]?
  match h : (chat.viewController device v.client.currentUser.1).sendMessage uuid date a v.sendState with
  | none => none
  | some (s, none) => some (v.afterSend now recentDate s)
  | some (s, some upload) =>
    some ((v.afterSend now recentDate s).start now
      [.upload chat.chatRoomId upload ((ChatViewController.sendMessage_staysIn h).2 upload rfl)])

theorem sendMessage_cases {now : ℕ} {v v' : View u} {k : ℕ} {device : ChatViewController}
    {uuid : String} {date : Date} {recentDate : String} {a : SendArguments}
    (h : v.sendMessage now k device uuid date recentDate a = some v') :
    ∃ chat s upload, v.client.chats[k]? = some chat ∧
      (chat.viewController device v.client.currentUser.1).sendMessage uuid date a v.sendState =
        some (s, upload) ∧
      (v' = v.afterSend now recentDate s ∨ ∃ up staysIn, upload = some up ∧
        v' = (v.afterSend now recentDate s).start now [.upload chat.chatRoomId up staysIn]) := by
  obtain ⟨chat, hchat, h⟩ := Option.bind_eq_some_iff.mp h
  split at h
  · exact absurd h nofun
  · next s hs =>
    exact ⟨chat, s, none, hchat, hs, Or.inl (Option.some.inj h).symm⟩
  · next s up hs =>
    exact ⟨chat, s, some up, hchat, hs, Or.inr ⟨up, _, rfl, (Option.some.inj h).symm⟩⟩

/-- An incoming message comes on the screen and is marked as read for
`membersToPush`. -/
def insertInitialLoadMessages (k : ℕ) (messageId readDate : String) : Option (View u) := do
  let chat ← v.client.chats[k]?
  let message ← v.messages ⟨u, chat.chatRoomId, messageId⟩
  let senderId ← message.senderId
  if senderId ≠ u then
    some (v.start now (chat.membersToPush.map fun userId =>
      .getMessage ⟨userId, chat.chatRoomId, messageId⟩ readDate))
  else some v

def deleteMessage (k : ℕ) (messageId : String) : Option (View u) := do
  let chat ← v.client.chats[k]?
  some { v with messages := Function.update v.messages ⟨u, chat.chatRoomId, messageId⟩ none }

def clearRecentCouter (k : ℕ) : Option (View u) := do
  let chat ← v.client.chats[k]?
  some (v.start now [.query (.clearRecentCouter u chat.chatRoomId)])

def backAction (k : ℕ) : Option (View u) := do
  let v ← v.clearRecentCouter now k
  some { v with client := { v.client with chats := v.client.chats.eraseIdx k } }

/-- A group is created, changed or gets new members.  Its id is a UUID, which does not
begin or end with a user id. -/
def updateGroup (op : Operation) : Option (View u) :=
  if u.toList <+: op.chatRoomId.toList ∨ u.toList <:+ op.chatRoomId.toList then none
  else
    match op with
    | .createRecent _ _ _ => some (v.start now [.query op])
    | .updateExistingRecentWithNewValues _ _ => some (v.start now [.query op])
    | _ => none

theorem updateGroup_cases {now : ℕ} {v v' : View u} {op : Operation}
    (h : v.updateGroup now op = some v') : v' = v.start now [.query op] ∧
      ¬ (u.toList <+: op.chatRoomId.toList ∨ u.toList <:+ op.chatRoomId.toList) := by
  unfold updateGroup at h
  split_ifs at h with hroom
  split at h
  · exact ⟨(Option.some.inj h).symm, hroom⟩
  · exact ⟨(Option.some.inj h).symm, hroom⟩
  · exact absurd h nofun

/-- The task `body`, begun at `begunAt`, goes on.  `answer` is the link of an upload;
`none` means that the upload or the request has failed. -/
def proceed (users : (u : Uid) → ProfileOf u) (begunAt : ℕ) (answer : Option String)
    (date : String) : TaskBody u → Option (View u)
  | .loadUsers ids =>
    if answer.isSome then
      some (v.start begunAt [.usersRead ((ids.filter (· ≠ u)).map fun id => ⟨(users id).1, now⟩)])
    else some v
  | .usersRead copies =>
    some { v with client := { v.client with copies := v.client.copies ++ copies } }
  | .updateUser withValues userObject =>
    if answer.isSome then
      some ({ v with profile := v.profile.setValuesForKeys withValues }.start begunAt
        [.userUpdated userObject])
    else some v
  | .userUpdated userObject => some { v with client := { v.client with currentUser := userObject } }
  | .upload _ upload _ => (upload.completion answer v.sendState).map (v.afterSend now date)
  | .query op =>
    if answer.isSome then
      some (v.start begunAt [.write op (op.callback (v.recents.inRoom op.chatRoomId))])
    else some v
  | .write _ [] => some v
  | .write op (w :: todo) =>
    some ({ v with recents := v.recents.apply w }.start begunAt [.write op todo])
  | .getMessage path readDate =>
    if (v.messages path).isSome then some (v.start begunAt [.updateMessage path readDate])
    else some v
  | .updateMessage path readDate =>
    match v.messages path with
    | none => some v
    | some message =>
      some { v with
        messages := v.messages.setData path
          { message with status := some kREAD, readDate := some readDate } }

end View

inductive ClientAction where
  | loadUsers (ids : List Uid)
  | startChat (i : ℕ) (date : String)
  | blockButtonPressed (i : ℕ)
  | unblock (userIdToUnblock : Uid)
  | updateCurrentUser (withValues : UserValues)
  | recentListner
  | didSelectRow (i : ℕ) (date : String)
  | updatePushMembers (i : ℕ)
  | deleteRow (i : ℕ)
  | sendMessage (k : ℕ) (device : ChatViewController) (uuid : String) (date : Date)
    (recentDate : String) (a : SendArguments)
  | insertInitialLoadMessages (k : ℕ) (messageId readDate : String)
  | deleteMessage (k : ℕ) (messageId : String)
  | clearRecentCouter (k : ℕ)
  | backAction (k : ℕ)
  | updateGroup (op : Operation)
  | proceed (i : ℕ) (answer : Option String) (date : String)

namespace World

def view (w : World) (u : Uid) : View u := ⟨w.users u, w.recents, w.messages, w.client u⟩

/-- The world after a step of `u`. -/
def next (w : World) {u : Uid} (v : View u) : World where
  time := w.time + 1
  users := Function.update w.users u v.profile
  recents := v.recents
  messages := v.messages
  client := Function.update w.client u v.client

/-- One action of the client of `u`. -/
def act (w : World) (u : Uid) (action : ClientAction) : Option (View u) :=
  let v := w.view u
  match action with
  | .loadUsers ids => some (v.loadUsers w.time ids)
  | .startChat i date => v.startChat w.time i date
  | .blockButtonPressed i => v.blockButtonPressed w.time i
  | .unblock userIdToUnblock => v.unblock w.time userIdToUnblock
  | .updateCurrentUser withValues =>
    if withValues.blockedUsers.isNone then
      some (v.updateCurrentUserInFirestore w.time withValues)
    else none
  | .recentListner => some v.recentListner
  | .didSelectRow i date => v.didSelectRow w.time i date
  | .updatePushMembers i => v.updatePushMembers w.time i
  | .deleteRow i => v.deleteRow i
  | .sendMessage k device uuid date recentDate a =>
    v.sendMessage w.time k device uuid date recentDate a
  | .insertInitialLoadMessages k messageId readDate =>
    v.insertInitialLoadMessages w.time k messageId readDate
  | .deleteMessage k messageId => v.deleteMessage k messageId
  | .clearRecentCouter k => v.clearRecentCouter w.time k
  | .backAction k => v.backAction w.time k
  | .updateGroup op => v.updateGroup w.time op
  | .proceed i answer date => do
    let task ← v.client.tasks[i]?
    { v with client := { v.client with tasks := v.client.tasks.eraseIdx i } }.proceed w.time
      w.users task.begunAt answer date task.body

def step (w : World) (a : Uid × ClientAction) : Option World := (w.act a.1 a.2).map w.next

def fresh (profile : (u : Uid) → ProfileOf u) (recents : Recents) (messages : MessageStore) :
    World where
  time := 0
  users := profile
  recents := recents
  messages := messages
  client u := ⟨profile u, [], [], [], []⟩

end World

end LiChat
