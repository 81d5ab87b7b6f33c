import LiChat.Messages

/-!
# Sending from the chat screen

`ChatViewController.sendMessage` has one branch for each kind of payload.  The
picture, video and audio branches go on in the completion handler of an upload.
-/

namespace LiChat

abbrev NSData := List UInt8

/-- What sending acts on: the stored messages, the UUIDs that were drawn, the
calls of `updateRecents` and of `sendPushNotification` in the order of issue, and
the two signals of success that the screen gives. -/
structure SendState where
  messages : MessageStore
  uuids : List String
  updateRecents : List (String × String)
  sendPushNotification : List (List Uid × String)
  playMessageSentSound : ℕ
  finishSendingMessage : ℕ

/-- `OutgoingMessages.sendMessage`; `uuid` is the value of `UUID().uuidString`. -/
def OutgoingMessages.sendMessage (uuid chatRoomId : String) (messageDictionary : MessageDictionary)
    (memberIds : List Uid) (w : SendState) : Option SendState := do
  let messageDictionary := { messageDictionary with messageId := some uuid }
  let lastMessage ← messageDictionary.message
  some { w with
    messages := w.messages.setDataFor memberIds chatRoomId uuid messageDictionary
    uuids := w.uuids ++ [uuid]
    updateRecents := w.updateRecents ++ [(chatRoomId, lastMessage)] }

inductive UploadContent where
  | image (image : NSData)
  | video (video : NSData)
  | audio (audioPath : String)

/-- An upload under way; the completion receives the link, or nothing when the
upload has failed. -/
structure Upload where
  content : UploadContent
  completion : Option String → SendState → Option SendState

/-- The optional arguments of `sendMessage`. -/
structure SendArguments where
  text : Option String := none
  picture : Option NSData := none
  location : Option String := none
  video : Option String := none
  audio : Option String := none

/-- The open screen of a room, with what it reads from the device:
`FUser.currentUser()`, the coordinates of the app delegate, files and their
thumbnails (as base64 text). -/
structure ChatViewController where
  chatRoomId : String
  memberIds : List Uid
  membersToPush : List Uid
  currentUser : Option FUser
  coordinates : Option (ℚ × ℚ)
  formatter : DateFormatter
  encryptText : String → String → String
  contentsOfFile : String → Option NSData
  videoThumbNail : String → Option String

namespace ChatViewController

def playSoundAndFinish (w : SendState) : SendState :=
  { w with
    playMessageSentSound := w.playMessageSentSound + 1
    finishSendingMessage := w.finishSendingMessage + 1 }

def push (vc : ChatViewController) (message : String) (w : SendState) : SendState :=
  { w with sendPushNotification := w.sendPushNotification ++ [(vc.membersToPush, message)] }

def send (vc : ChatViewController) (uuid : String) (outgoingMessage : MessageDictionary)
    (message : String) (w : SendState) : Option SendState := do
  let w ← OutgoingMessages.sendMessage uuid vc.chatRoomId outgoingMessage vc.memberIds
    (playSoundAndFinish w)
  some (vc.push message w)

/-- The text that stands for a payload of the given type. -/
def encryptType (vc : ChatViewController) (type : String) : String :=
  vc.encryptText vc.chatRoomId ("[" ++ type ++ "]")

def completionPicture (vc : ChatViewController) (uuid : String) (currentUser : FUser)
    (date : Date) : Option String → SendState → Option SendState
  | none, w => some w
  | some imageLink, w =>
    vc.send uuid (OutgoingMessages.picture vc.formatter (vc.encryptType kPICTURE) imageLink
      currentUser.objectId currentUser.firstname date kDELIVERED kPICTURE) "Picture Message" w

def completionVideo (vc : ChatViewController) (uuid : String) (currentUser : FUser)
    (date : Date) (dataThumbNail : Option String) : Option String → SendState → Option SendState
  | none, w => some w
  | some videoLink, w => do
    let thumbNail ← dataThumbNail
    vc.send uuid (OutgoingMessages.video vc.formatter (vc.encryptType kVIDEO) videoLink thumbNail
      currentUser.objectId currentUser.firstname date kDELIVERED kVIDEO) "Video Message" w

def completionAudio (vc : ChatViewController) (uuid : String) (currentUser : FUser)
    (date : Date) : Option String → SendState → Option SendState
  | none, w => some w
  | some audioLink, w =>
    vc.send uuid (OutgoingMessages.audio vc.formatter (vc.encryptType kAUDIO) audioLink
      currentUser.objectId currentUser.firstname date kDELIVERED kAUDIO) "Audio Message" w

/-- `sendMessage`: the new state and the upload that the call has started, if it
has.  A forced unwrap that fails is `none`. -/
def sendMessage (vc : ChatViewController) (uuid : String) (date : Date) (a : SendArguments)
    (w : SendState) : Option (SendState × Option Upload) := do
  let currentUser ← vc.currentUser
  let outgoingMessage := a.text.map fun text =>
    OutgoingMessages.text vc.formatter (vc.encryptText vc.chatRoomId text) currentUser.objectId
      currentUser.firstname date kDELIVERED kTEXT
  match a.picture, a.video, a.audio, a.location with
  | some pic, _, _, _ => some (w, some ⟨.image pic, vc.completionPicture uuid currentUser date⟩)
  | none, some video, _, _ => do
    let videoData ← vc.contentsOfFile video
    some (w, some ⟨.video videoData,
      vc.completionVideo uuid currentUser date (vc.videoThumbNail video)⟩)
  | none, none, some audioPath, _ =>
    some (w, some ⟨.audio audioPath, vc.completionAudio uuid currentUser date⟩)
  | none, none, none, some _ => do
    let (lat, long) ← vc.coordinates
    let w := playSoundAndFinish w
    -- the message is built and dropped
    let _ := OutgoingMessages.location vc.formatter (vc.encryptType kLOCATION) lat long
      currentUser.objectId currentUser.firstname date kDELIVERED kLOCATION
    some (vc.push "Location Message" w, none)
  | none, none, none, none => do
    let w ← vc.send uuid (← outgoingMessage) (← a.text) w
    some (w, none)

/-- The rest of a call, when its upload has succeeded and yields `link`. -/
def finish (link : String) : SendState × Option Upload → Option SendState
  | (w, none) => some w
  | (w, some upload) => upload.completion (some link) w

end ChatViewController

inductive Payload where
  | text (text : String)
  | picture (picture : NSData)
  | video (video : String)
  | audio (audio : String)
  | location

namespace Payload

def arguments : Payload → SendArguments
  | text s => { text := some s }
  | picture p => { picture := some p }
  | video v => { video := some v }
  | audio a => { audio := some a }
  | location => { location := some kLOCATION }

def type : Payload → String
  | text _ => kTEXT
  | picture _ => kPICTURE
  | video _ => kVIDEO
  | audio _ => kAUDIO
  | location => kLOCATION

/-- The dictionary that encodes the payload, for the link of its upload. -/
def encoded (vc : ChatViewController) (user : FUser) (date : Date) (link : String) :
    Payload → Option MessageDictionary
  | text s => some <| OutgoingMessages.text vc.formatter (vc.encryptText vc.chatRoomId s)
      user.objectId user.firstname date kDELIVERED kTEXT
  | picture _ => some <| OutgoingMessages.picture vc.formatter (vc.encryptType kPICTURE) link
      user.objectId user.firstname date kDELIVERED kPICTURE
  | video v => (vc.videoThumbNail v).map fun thumbNail =>
      OutgoingMessages.video vc.formatter (vc.encryptType kVIDEO) link thumbNail user.objectId
        user.firstname date kDELIVERED kVIDEO
  | audio _ => some <| OutgoingMessages.audio vc.formatter (vc.encryptType kAUDIO) link
      user.objectId user.firstname date kDELIVERED kAUDIO
  | location => vc.coordinates.map fun (lat, long) =>
      OutgoingMessages.location vc.formatter (vc.encryptType kLOCATION) lat long user.objectId
        user.firstname date kDELIVERED kLOCATION

/-- A video needs its file and a thumbnail for the upload to start and to end;
the other payloads are uploaded as they are. -/
def Uploadable (vc : ChatViewController) : Payload → Prop
  | video v => (vc.contentsOfFile v).isSome ∧ (vc.videoThumbNail v).isSome
  | _ => True

end Payload

/-- The payload has been delivered between the states `w` and `w'`: one fresh
message id was drawn, the members' documents under that id hold the encoded
dictionary, no other document has changed, and `updateRecents` was called once
with the encrypted text. -/
def Delivered (vc : ChatViewController) (user : FUser) (date : Date) (link : String)
    (payload : Payload) (w w' : SendState) : Prop :=
  ∃ messageId data text,
    payload.encoded vc user date link = some data ∧ data.type = some payload.type ∧
    data.message = some text ∧
    w'.uuids = w.uuids ++ [messageId] ∧
    (∀ path, path.messageId = messageId → w.messages path = none) ∧
    (∀ path, w'.messages path =
      if path.memberId ∈ vc.memberIds ∧ path.chatRoomId = vc.chatRoomId ∧
          path.messageId = messageId
      then some { data with messageId := some messageId } else w.messages path) ∧
    w'.updateRecents = w.updateRecents ++ [(vc.chatRoomId, text)]

namespace ChatViewController

def sendPayload (vc : ChatViewController) (uuid : String) (date : Date) (link : String)
    (payload : Payload) (w : SendState) : Option SendState :=
  (vc.sendMessage uuid date payload.arguments w).bind (finish link)

variable {vc : ChatViewController} {uuid link : String} {date : Date} {payload : Payload}
  {w : SendState}

theorem sendPayload_eq_send (uuid link : String) (date : Date) (w : SendState) {user : FUser}
    (huser : vc.currentUser = some user)
    (hupload : payload.Uploadable vc) (hlocation : payload ≠ .location) :
    ∃ data message, payload.encoded vc user date link = some data ∧
      vc.sendPayload uuid date link payload w = vc.send uuid data message w := by
  cases payload with
  | text s =>
    refine ⟨_, s, rfl, ?_⟩
    simp only [sendPayload, sendMessage, Payload.arguments, huser]
    cases h : vc.send uuid (OutgoingMessages.text vc.formatter (vc.encryptText vc.chatRoomId s)
      user.objectId user.firstname date kDELIVERED kTEXT) s w <;> simp [h, finish]
  | picture p =>
    refine ⟨_, "Picture Message", rfl, ?_⟩
    simp only [sendPayload, sendMessage, Payload.arguments, huser]
    rfl
  | video v =>
    obtain ⟨hfile, hthumb⟩ := hupload
    obtain ⟨file, hfile⟩ := Option.isSome_iff_exists.mp hfile
    obtain ⟨thumbNail, hthumb⟩ := Option.isSome_iff_exists.mp hthumb
    refine ⟨_, "Video Message", by rw [Payload.encoded, hthumb, Option.map_some], ?_⟩
    simp only [sendPayload, sendMessage, Payload.arguments, huser, hfile, hthumb]
    rfl
  | audio a =>
    refine ⟨_, "Audio Message", rfl, ?_⟩
    simp only [sendPayload, sendMessage, Payload.arguments, huser]
    rfl
  | location => exact absurd rfl hlocation

/-- Every payload is encoded with its type, the date of the sender's formatter and
some text. -/
theorem encoded_spec {user : FUser} {data : MessageDictionary}
    (h : payload.encoded vc user date link = some data) :
    data.type = some payload.type ∧ data.date = some (vc.formatter.string date) ∧
      ∃ text, data.message = some text := by
  cases payload with
  | text s =>
    cases h
    exact ⟨rfl, rfl, _, rfl⟩
  | picture p =>
    cases h
    exact ⟨rfl, rfl, _, rfl⟩
  | audio a =>
    cases h
    exact ⟨rfl, rfl, _, rfl⟩
  | video v =>
    obtain ⟨thumbNail, -, rfl⟩ := Option.map_eq_some_iff.mp h
    exact ⟨rfl, rfl, _, rfl⟩
  | location =>
    obtain ⟨coordinates, -, rfl⟩ := Option.map_eq_some_iff.mp h
    exact ⟨rfl, rfl, _, rfl⟩

theorem send_delivers {user : FUser} {data : MessageDictionary} (message : String)
    (hdata : payload.encoded vc user date link = some data)
    (hfresh : ∀ path : MessagePath, path.messageId = uuid → w.messages path = none) :
    ∃ w', vc.send uuid data message w = some w' ∧ Delivered vc user date link payload w w' := by
  obtain ⟨htype, -, text, htext⟩ := encoded_spec hdata
  have hsend : vc.send uuid data message w = some (vc.push message
      { playSoundAndFinish w with
        messages := w.messages.setDataFor vc.memberIds vc.chatRoomId uuid
          { data with messageId := some uuid }
        uuids := w.uuids ++ [uuid]
        updateRecents := w.updateRecents ++ [(vc.chatRoomId, text)] }) := by
    simp only [send, OutgoingMessages.sendMessage, htext]
    rfl
  refine ⟨_, hsend, uuid, data, text, hdata, htype, htext, rfl, hfresh, ?_, rfl⟩
  intro path
  exact MessageStore.setDataFor_apply ..

/-- The location branch returns before it stores anything. -/
theorem location_messages {w' : SendState}
    (h : vc.sendPayload uuid date link .location w = some w') : w'.uuids = w.uuids := by
  obtain ⟨⟨w₁, upload⟩, hcall, hfinish⟩ := Option.bind_eq_some_iff.mp h
  obtain ⟨user, huser, hcall⟩ := Option.bind_eq_some_iff.mp hcall
  obtain ⟨⟨lat, long⟩, -, hcall⟩ := Option.bind_eq_some_iff.mp hcall
  cases hcall
  cases hfinish
  rfl

/-- A payload is delivered exactly when it is not a location, whatever the
members, the payload's content and the messages stored before. -/
theorem sendMessage_delivers_iff (vc : ChatViewController) (uuid link : String) (date : Date)
    (payload : Payload) (w : SendState)
    (hfresh : ∀ path : MessagePath, path.messageId = uuid → w.messages path = none)
    (hupload : payload.Uploadable vc) :
    (∃ user w', vc.currentUser = some user ∧ vc.sendPayload uuid date link payload w = some w' ∧
      Delivered vc user date link payload w w') ↔
    payload ≠ .location ∧ vc.currentUser.isSome := by
  constructor
  · rintro ⟨user, w', huser, hrun, messageId, data, text, -, -, -, hdrawn, -⟩
    refine ⟨?_, Option.isSome_iff_exists.mpr ⟨user, huser⟩⟩
    rintro rfl
    have hnone := location_messages hrun
    rw [hnone] at hdrawn
    simp at hdrawn
  · rintro ⟨hlocation, huser⟩
    obtain ⟨user, huser⟩ := Option.isSome_iff_exists.mp huser
    obtain ⟨data, message, hdata, hrun⟩ :=
      sendPayload_eq_send uuid link date w huser hupload hlocation
    obtain ⟨w', hsend, hdelivered⟩ := send_delivers message hdata hfresh
    exact ⟨user, w', huser, hrun.trans hsend, hdelivered⟩

def aliceScreen : ChatViewController where
  chatRoomId := "alicebob"
  memberIds := ["alice", "bob"]
  membersToPush := ["alice", "bob"]
  currentUser := some (FUser.make "alice" none 0 0 "" "Alice" "" "" "" "" "" "")
  coordinates := some (37, 127)
  formatter := dateFormatter 0
  encryptText := fun _ message => message
  contentsOfFile := fun _ => none
  videoThumbNail := fun _ => none

def emptyState : SendState := ⟨fun _ => none, [], [], [], 0, 0⟩

theorem sendMessage_delivers_text :
    ∃ user w', aliceScreen.currentUser = some user ∧
      aliceScreen.sendPayload "m1" 0 "" (.text "hello") emptyState = some w' ∧
      Delivered aliceScreen user 0 "" (.text "hello") emptyState w' :=
  (sendMessage_delivers_iff aliceScreen "m1" "" 0 (.text "hello") emptyState
    (fun _ _ => rfl) trivial).mpr ⟨by simp, rfl⟩

/-- The location of Alice is announced on both devices and stored on none. -/
theorem sendMessage_location_lost :
    (∀ path : MessagePath, path.messageId = "m1" → emptyState.messages path = none) ∧
    Payload.location.Uploadable aliceScreen ∧
    ∃ user w', aliceScreen.currentUser = some user ∧
      aliceScreen.sendPayload "m1" 0 "" .location emptyState = some w' ∧
      w'.playMessageSentSound = 1 ∧
      w'.sendPushNotification = [(["alice", "bob"], "Location Message")] ∧
      (∀ path, w'.messages path = none) ∧
      ¬ Delivered aliceScreen user 0 "" .location emptyState w' := by
  refine ⟨fun _ _ => rfl, trivial, _, _, rfl, rfl, rfl, rfl, fun _ => rfl, ?_⟩
  rintro ⟨messageId, data, text, -, -, -, hdrawn, -⟩
  exact absurd hdrawn (by simp [emptyState, push, playSoundAndFinish])

end ChatViewController

end LiChat
