import LiChat.ChatPaging
import LiChat.ChatSend
import LiChat.DateFormat

/-!
# Incoming messages

`createMessage` makes what the screen shows of a message document.  It insists on
keys that every document of the app has.
-/

namespace LiChat
open Calendar

/-- The text of a message, or its media item: the link of a file or a place, and whether
the bubble is masked as outgoing. -/
inductive JSQMessageContent where
  | text (text : String)
  | photo (imageUrl : String) (appliesMediaViewMaskAsOutgoing : Bool)
  | video (videoUrl : String) (appliesMediaViewMaskAsOutgoing : Bool)
  | audio (audioUrl : String) (appliesMediaViewMaskAsOutgoing : Bool)
  | location (latitude longitude : ℚ) (appliesMediaViewMaskAsOutgoing : Bool)
  deriving DecidableEq

structure JSQMessage where
  senderId : Uid
  senderDisplayName : String
  date : Date
  content : JSQMessageContent
  deriving DecidableEq

/-- The initialiser asserts that nothing is missing. -/
def JSQMessage.new (senderId : Option Uid) (senderDisplayName : Option String)
    (date : Option Date) (content : JSQMessageContent) : Except Trap JSQMessage := do
  let senderId ← unwrap senderId
  let senderDisplayName ← unwrap senderDisplayName
  let date ← unwrap date
  return ⟨senderId, senderDisplayName, date, content⟩

/-- What `createMessage` reads besides the document: the current user, the room, the
formatter and the clock of the device, and `ENcryption.decryptText`. -/
structure IncomingMessage where
  currentId : Uid
  chatRoomId : String
  formatter : DateFormatter
  now : Date
  decryptText : String → String → String

namespace IncomingMessage
variable (incoming : IncomingMessage)

/-- The date of a document, or now when there is none of fourteen characters. -/
def messageDate (messageDictionary : MessageDictionary) : Option Date :=
  match messageDictionary.date with
  | some created =>
    if created.length ≠ 14 then some incoming.now else incoming.formatter.date created
  | none => some incoming.now

def returnOutGoingStatusForUser (senderId : Uid) : Bool := senderId = incoming.currentId

def createTextMessage (messageDictionary : MessageDictionary) : Except Trap JSQMessage := do
  let text ← unwrap messageDictionary.message
  let decryptedText := incoming.decryptText incoming.chatRoomId text
  JSQMessage.new messageDictionary.senderId messageDictionary.senderName
    (incoming.messageDate messageDictionary) (.text decryptedText)

def createPictureMessage (messageDictionary : MessageDictionary) : Except Trap JSQMessage := do
  let userId ← unwrap messageDictionary.senderId
  let imageUrl ← unwrap messageDictionary.picture
  JSQMessage.new userId messageDictionary.senderName (incoming.messageDate messageDictionary)
    (.photo imageUrl (incoming.returnOutGoingStatusForUser userId))

def createVideoMessage (messageDictionary : MessageDictionary) : Except Trap JSQMessage := do
  let videoUrl ← unwrap messageDictionary.video
  let userId ← unwrap messageDictionary.senderId
  JSQMessage.new userId messageDictionary.senderName (incoming.messageDate messageDictionary)
    (.video videoUrl (incoming.returnOutGoingStatusForUser userId))

/-- The initialiser without a date takes the time of the call. -/
def createAudioMessage (messageDictionary : MessageDictionary) : Except Trap JSQMessage := do
  let userId ← unwrap messageDictionary.senderId
  let audioUrl ← unwrap messageDictionary.audio
  JSQMessage.new userId messageDictionary.senderName incoming.now
    (.audio audioUrl (incoming.returnOutGoingStatusForUser userId))

def createLocationMessage (messageDictionary : MessageDictionary) : Except Trap JSQMessage := do
  let _ ← unwrap messageDictionary.message
  let userId ← unwrap messageDictionary.senderId
  let latitude ← unwrap messageDictionary.latitude
  let longitude ← unwrap messageDictionary.longitude
  JSQMessage.new userId messageDictionary.senderName (incoming.messageDate messageDictionary)
    (.location latitude longitude (incoming.returnOutGoingStatusForUser userId))

/-- There is no message for an unknown type. -/
def createMessage (messageDictionary : MessageDictionary) :
    Except Trap (Option JSQMessage) := do
  let type ← unwrap messageDictionary.type
  if type = kTEXT then some <$> incoming.createTextMessage messageDictionary
  else if type = kPICTURE then some <$> incoming.createPictureMessage messageDictionary
  else if type = kVIDEO then some <$> incoming.createVideoMessage messageDictionary
  else if type = kAUDIO then some <$> incoming.createAudioMessage messageDictionary
  else if type = kLOCATION then some <$> incoming.createLocationMessage messageDictionary
  else return none

/-- The screen of the room.  A forced cast that fails in `createMessage` counts as no
message here; the documents of the app pass them all. -/
def chatScreen : ChatScreen JSQMessage where
  currentId := incoming.currentId
  createMessage := fun messageDictionary =>
    match incoming.createMessage messageDictionary with
    | .ok message => message
    | .error _ => none

end IncomingMessage

/-- What a message document can hold: a payload under the id of its message, in which
`updateMessage` may have set the status. -/
inductive StoredMessage : MessageDictionary → Prop
  | sendMessage {vc : ChatViewController} {user : FUser} {date : Date} {link : String}
      {payload : Payload} {m : MessageDictionary} (messageId : String) :
      payload.encoded vc user date link = some m → vc.formatter.InYears date →
      StoredMessage { m with messageId := some messageId }
  | updateMessage {m : MessageDictionary} (readDate : String) :
      StoredMessage m → StoredMessage { m with status := some kREAD, readDate := some readDate }

structure Showable {JSQMessage : Type} (vc : ChatScreen JSQMessage) (m : MessageDictionary) :
    Prop where
  senderId : ∃ senderId, m.senderId = some senderId
  messageId : ∃ messageId, m.messageId = some messageId
  type : ∃ type, m.type = some type
  picture : m.type = some kPICTURE → ∃ link, m.picture = some link
  created : ∃ message, vc.createMessage m = some message

namespace StoredMessage
variable {vc : ChatViewController} {user : FUser} {date : Date} {link : String}
  {payload : Payload} {m : MessageDictionary}

theorem encoded_fields (h : payload.encoded vc user date link = some m) :
    m.senderId = some user.objectId ∧ m.senderName = some user.firstname ∧
      m.date = some (vc.formatter.string date) ∧ m.type = some payload.type := by
  cases payload with
  | text s =>
    obtain rfl := Option.some.inj h
    exact ⟨rfl, rfl, rfl, rfl⟩
  | picture p =>
    obtain rfl := Option.some.inj h
    exact ⟨rfl, rfl, rfl, rfl⟩
  | video v =>
    obtain ⟨_, -, rfl⟩ := Option.map_eq_some_iff.mp h
    exact ⟨rfl, rfl, rfl, rfl⟩
  | audio a =>
    obtain rfl := Option.some.inj h
    exact ⟨rfl, rfl, rfl, rfl⟩
  | location =>
    obtain ⟨_, -, rfl⟩ := Option.map_eq_some_iff.mp h
    exact ⟨rfl, rfl, rfl, rfl⟩

theorem messageDate_eq (incoming : IncomingMessage)
    (hdate : m.date = some (vc.formatter.string date)) (hyears : vc.formatter.InYears date) :
    ∃ t, incoming.messageDate m = some t := by
  have hlength : (vc.formatter.string date).length = 14 :=
    (isDateString_string vc.formatter date).1
  refine ⟨(vc.formatter.wallClock date - incoming.formatter.secondsFromGMT : ℤ), ?_⟩
  rw [IncomingMessage.messageDate, hdate]
  simp only [hlength]
  exact DateFormatter.date_string incoming.formatter hyears

/-- Neither the id nor the status is read. -/
theorem createMessage_messageId (incoming : IncomingMessage) (messageId : String) :
    incoming.createMessage { m with messageId := some messageId } = incoming.createMessage m := rfl

theorem createMessage_encoded (incoming : IncomingMessage)
    (h : payload.encoded vc user date link = some m) (hyears : vc.formatter.InYears date) :
    ∃ message, incoming.createMessage m = .ok (some message) := by
  obtain ⟨-, -, hdate, -⟩ := encoded_fields h
  obtain ⟨t, ht⟩ := messageDate_eq incoming hdate hyears
  cases payload with
  | text s =>
    obtain rfl := Option.some.inj h
    refine ⟨⟨user.objectId, user.firstname, t,
      .text (incoming.decryptText incoming.chatRoomId (vc.encryptText vc.chatRoomId s))⟩, ?_⟩
    simp only [IncomingMessage.createMessage, IncomingMessage.createTextMessage, ht]
    rfl
  | picture p =>
    obtain rfl := Option.some.inj h
    refine ⟨⟨user.objectId, user.firstname, t,
      .photo link (incoming.returnOutGoingStatusForUser user.objectId)⟩, ?_⟩
    simp only [IncomingMessage.createMessage, IncomingMessage.createPictureMessage, ht]
    rfl
  | video v =>
    obtain ⟨_, -, rfl⟩ := Option.map_eq_some_iff.mp h
    refine ⟨⟨user.objectId, user.firstname, t,
      .video link (incoming.returnOutGoingStatusForUser user.objectId)⟩, ?_⟩
    simp only [IncomingMessage.createMessage, IncomingMessage.createVideoMessage, ht]
    rfl
  | audio a =>
    obtain rfl := Option.some.inj h
    exact ⟨_, rfl⟩
  | location =>
    obtain ⟨⟨lat, long⟩, -, rfl⟩ := Option.map_eq_some_iff.mp h
    refine ⟨⟨user.objectId, user.firstname, t,
      .location lat long (incoming.returnOutGoingStatusForUser user.objectId)⟩, ?_⟩
    simp only [IncomingMessage.createMessage, IncomingMessage.createLocationMessage, ht]
    rfl

theorem encoded_picture (h : payload.encoded vc user date link = some m)
    (htype : m.type = some kPICTURE) : ∃ link, m.picture = some link := by
  cases payload with
  | text s =>
    obtain rfl := Option.some.inj h
    exact absurd htype (by decide : some kTEXT ≠ some kPICTURE)
  | picture p =>
    obtain rfl := Option.some.inj h
    exact ⟨link, rfl⟩
  | video v =>
    obtain ⟨thumbNail, -, rfl⟩ := Option.map_eq_some_iff.mp h
    exact ⟨thumbNail, rfl⟩
  | audio a =>
    obtain rfl := Option.some.inj h
    exact absurd htype (by decide : some kAUDIO ≠ some kPICTURE)
  | location =>
    obtain ⟨_, -, rfl⟩ := Option.map_eq_some_iff.mp h
    exact absurd htype (by decide : some kLOCATION ≠ some kPICTURE)

theorem showable (incoming : IncomingMessage) (h : StoredMessage m) :
    Showable incoming.chatScreen m := by
  induction h with
  | sendMessage messageId h hyears =>
    obtain ⟨hsender, -, -, htype⟩ := encoded_fields h
    obtain ⟨message, hmessage⟩ := createMessage_encoded incoming h hyears
    have hpicture := encoded_picture h
    refine ⟨⟨_, hsender⟩, ⟨messageId, rfl⟩, ⟨_, htype⟩, hpicture, message, ?_⟩
    simp only [IncomingMessage.chatScreen, createMessage_messageId, hmessage]
  | updateMessage readDate h ih => exact ⟨ih.senderId, ih.messageId, ih.type, ih.picture, ih.created⟩

end StoredMessage

/-- The documents of Message/<current user>/<chatRoomId> at some time: each is stored
under its kMESSAGEID, and those of a legit type are documents of the app. -/
structure MessageCollection where
  documents : List MessageDocument
  distinct : (documents.map MessageDocument.documentID).Nodup
  messageId_eq : ∀ d ∈ documents, d.data.messageId = some d.documentID
  stored : ∀ d ∈ documents, d.data.legit → StoredMessage d.data

theorem MessageCollection.nodup_messageId (collection : MessageCollection) :
    ((dictionaryFromSnapshots collection.documents).map MessageDictionary.messageId).Nodup := by
  have hmap : (dictionaryFromSnapshots collection.documents).map MessageDictionary.messageId =
      (collection.documents.map MessageDocument.documentID).map some := by
    rw [dictionaryFromSnapshots, List.map_map, List.map_map]
    exact List.map_congr_left collection.messageId_eq
  rw [hmap]
  exact collection.distinct.map (Option.some_injective _)

/-- The `i`-th second of a day in 2019. -/
def secondOf (i : ℕ) : Date := (63684316800 + i : ℕ)

def textOfAlice (i : ℕ) : MessageDocument where
  documentID := Nat.repr i
  data :=
    { OutgoingMessages.text (dateFormatter 0) "hello" "alice" "Alice" (secondOf i) kDELIVERED kTEXT with
      messageId := some (Nat.repr i) }

theorem inYears_secondOf {i : ℕ} (hi : i < 60) : (dateFormatter 0).InYears (secondOf i) := by
  have hdays : daysBeforeYear 10000 = 3652059 := by decide
  have hclock : (dateFormatter 0).wallClock (secondOf i) = (63684316800 + i : ℕ) := by
    rw [DateFormatter.wallClock, secondOf, Int.floor_natCast]
    rfl
  rw [DateFormatter.InYears, hclock, hdays]
  omega

theorem storedMessage_textOfAlice {i : ℕ} (hi : i < 60) : StoredMessage (textOfAlice i).data :=
  @StoredMessage.sendMessage ChatViewController.aliceScreen
    (FUser.make "alice" none 0 0 "" "Alice" "" "" "" "" "" "") (secondOf i) "" (.text "hello") _
    (Nat.repr i) rfl (inYears_secondOf hi)

def textsOfAlice (seconds : List ℕ) (hdistinct : (seconds.map Nat.repr).Nodup)
    (hseconds : ∀ i ∈ seconds, i < 60) : MessageCollection where
  documents := seconds.map textOfAlice
  distinct := by
    rw [List.map_map]
    exact hdistinct
  messageId_eq := by
    intro d hd
    obtain ⟨i, -, rfl⟩ := List.mem_map.mp hd
    rfl
  stored := by
    intro d hd _
    obtain ⟨i, hi, rfl⟩ := List.mem_map.mp hd
    exact storedMessage_textOfAlice (hseconds i hi)

def twelveTexts : MessageCollection := textsOfAlice (List.range 12) (by decide) (by decide)

def bobIncoming : IncomingMessage := ⟨"bob", "alicebob", dateFormatter 0, 0, fun _ text => text⟩

end LiChat
