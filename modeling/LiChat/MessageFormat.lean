import LiChat.General.Base64
import LiChat.IncomingMessages

/-!
# The format of messages

`OutgoingMessages` writes five kinds of documents, and `IncomingMessage` reads them.
-/

namespace LiChat

/-- The package of that name: decryption under the same password inverts encryption, which
may refuse a password by a trap. -/
structure RNCryptor where
  encrypt : (data : NSData) → (withPassword : String) → Option NSData
  decrypt : (password : String) → NSData → Option NSData
  decrypt_encrypt : ∀ {data password encryptedData}, encrypt data password = some encryptedData →
    decrypt password encryptedData = some data

def base64EncodedString (data : NSData) : String := String.ofList (Base64.encode data)

/-- `NSData(base64Encoded:options:)`, without options. -/
def base64Decoded (s : String) : Option NSData := Base64.decode s.toList

/-- The decoded text is unwrapped. -/
def imageFromData {Image : Type} (uiImage : NSData → Option Image) (pictureData : String) :
    Option (Option Image) :=
  (base64Decoded pictureData).map uiImage

theorem base64Decoded_encoded (data : NSData) :
    base64Decoded (base64EncodedString data) = some data := by
  rw [base64Decoded, base64EncodedString, String.toList_ofList, Base64.decode_encode]

namespace ENcryption

def encryptText (c : RNCryptor) (chatRoomId message : String) : Option String :=
  (c.encrypt message.toUTF8.data.toList chatRoomId).map base64EncodedString

/-- The empty text when decoding or decrypting fails; it traps on data that is not UTF-8. -/
def decryptText (c : RNCryptor) (chatRoomId encryptMessage : String) : Option String :=
  match base64Decoded encryptMessage with
  | none => some ""
  | some encryptedData =>
    match c.decrypt chatRoomId encryptedData with
    | none => some ""
    | some decryptedData => String.fromUTF8? ⟨decryptedData.toArray⟩

theorem decryptText_encryptText {c : RNCryptor} {chatRoomId message encryptMessage : String}
    (h : encryptText c chatRoomId message = some encryptMessage) :
    decryptText c chatRoomId encryptMessage = some message := by
  obtain ⟨encryptedData, hencrypt, rfl⟩ := Option.map_eq_some_iff.mp h
  have hbytes : (⟨message.toUTF8.data.toList.toArray⟩ : ByteArray) = message.toUTF8 := by simp
  rw [decryptText, base64Decoded_encoded]
  simp only [c.decrypt_encrypt hencrypt, hbytes]
  exact dif_pos message.isValidUTF8

end ENcryption

/-- What the callback of a video's download decodes as its image. -/
def IncomingMessage.videoImageData (messageDictionary : MessageDictionary) :
    Except Trap NSData := do
  let pictureData ← unwrap messageDictionary.picture
  unwrap (base64Decoded pictureData)

/-- The two devices are in the same room and at the same offset. -/
structure Reads (c : RNCryptor) (vc : ChatViewController) (incoming : IncomingMessage) : Prop where
  chatRoomId : incoming.chatRoomId = vc.chatRoomId
  offset : incoming.formatter.secondsFromGMT = vc.formatter.secondsFromGMT
  encryptText : ∀ message, ENcryption.encryptText c vc.chatRoomId message =
    some (vc.encryptText vc.chatRoomId message)
  decryptText : ∀ chatRoomId encryptMessage message,
    ENcryption.decryptText c chatRoomId encryptMessage = some message →
    incoming.decryptText chatRoomId encryptMessage = message

/-- The text, or the media item with the link or the place. -/
def Payload.content (vc : ChatViewController) (link : String) (outgoing : Bool) :
    Payload → Option JSQMessageContent
  | text s => some (.text s)
  | picture _ => some (.photo link outgoing)
  | video _ => some (.video link outgoing)
  | audio _ => some (.audio link outgoing)
  | location => vc.coordinates.map fun (lat, long) => .location lat long outgoing

/-- The message that is created has the sender, the date to the second and the content,
with the thumbnail of a video. -/
def RoundTrips (vc : ChatViewController) (incoming : IncomingMessage) (user : FUser)
    (date : Date) (link : String) (payload : Payload) (messageDictionary : MessageDictionary) :
    Prop :=
  ∃ message, incoming.createMessage messageDictionary = .ok (some message) ∧
    message.senderId = user.objectId ∧ message.senderDisplayName = user.firstname ∧
    message.date = ⌊date⌋ ∧
    payload.content vc link (incoming.returnOutGoingStatusForUser user.objectId) =
      some message.content ∧
    ∀ video dataThumbNail, payload = .video video →
      vc.videoThumbNail video = some (base64EncodedString dataThumbNail) →
      IncomingMessage.videoImageData messageDictionary = .ok dataThumbNail

section
variable {c : RNCryptor} {vc : ChatViewController} {incoming : IncomingMessage} {user : FUser}
  {date : Date} {link : String} {payload : Payload} {m : MessageDictionary}

theorem Reads.messageDate_eq (h : Reads c vc incoming)
    (hdate : m.date = some (vc.formatter.string date)) (hyears : vc.formatter.InYears date) :
    incoming.messageDate m = some (⌊date⌋ : ℚ) := by
  have hlength : (vc.formatter.string date).length = 14 :=
    (isDateString_string vc.formatter date).1
  have hclock : vc.formatter.wallClock date - incoming.formatter.secondsFromGMT = ⌊date⌋ := by
    rw [DateFormatter.wallClock, h.offset]
    omega
  rw [IncomingMessage.messageDate, hdate]
  simp only [hlength]
  rw [← hclock]
  exact DateFormatter.date_string incoming.formatter hyears

theorem createMessage_content (h : Reads c vc incoming)
    (hm : payload.encoded vc user date link = some m) (hyears : vc.formatter.InYears date) :
    ∃ content, incoming.createMessage m = .ok (some ⟨user.objectId, user.firstname,
        if payload.type = kAUDIO then incoming.now else ⌊date⌋, content⟩) ∧
      payload.content vc link (incoming.returnOutGoingStatusForUser user.objectId) =
        some content := by
  obtain ⟨-, -, hdate, -⟩ := StoredMessage.encoded_fields hm
  have ht := h.messageDate_eq hdate hyears
  cases payload with
  | text s =>
    obtain rfl := Option.some.inj hm
    have htext : incoming.decryptText incoming.chatRoomId (vc.encryptText vc.chatRoomId s) = s := by
      rw [h.chatRoomId]
      exact h.decryptText _ _ _ (ENcryption.decryptText_encryptText (h.encryptText s))
    refine ⟨.text (incoming.decryptText incoming.chatRoomId (vc.encryptText vc.chatRoomId s)), ?_,
      by rw [htext, Payload.content]⟩
    rw [Payload.type, if_neg (by decide : ¬ kTEXT = kAUDIO)]
    simp only [IncomingMessage.createMessage, IncomingMessage.createTextMessage, ht]
    rfl
  | picture p =>
    obtain rfl := Option.some.inj hm
    refine ⟨_, ?_, rfl⟩
    rw [Payload.type, if_neg (by decide : ¬ kPICTURE = kAUDIO)]
    simp only [IncomingMessage.createMessage, IncomingMessage.createPictureMessage, ht]
    rfl
  | video v =>
    obtain ⟨_, -, rfl⟩ := Option.map_eq_some_iff.mp hm
    refine ⟨_, ?_, rfl⟩
    rw [Payload.type, if_neg (by decide : ¬ kVIDEO = kAUDIO)]
    simp only [IncomingMessage.createMessage, IncomingMessage.createVideoMessage, ht]
    rfl
  -- the only kind without the date of the document
  | audio a =>
    obtain rfl := Option.some.inj hm
    exact ⟨_, rfl, rfl⟩
  | location =>
    obtain ⟨⟨lat, long⟩, hplace, rfl⟩ := Option.map_eq_some_iff.mp hm
    refine ⟨.location lat long (incoming.returnOutGoingStatusForUser user.objectId), ?_, ?_⟩
    · rw [Payload.type, if_neg (by decide : ¬ kLOCATION = kAUDIO)]
      simp only [IncomingMessage.createMessage, IncomingMessage.createLocationMessage, ht]
      rfl
    · rw [Payload.content, hplace]
      rfl

theorem videoImageData_encoded {video : String} {dataThumbNail : NSData}
    (hm : (Payload.video video).encoded vc user date link = some m)
    (hthumb : vc.videoThumbNail video = some (base64EncodedString dataThumbNail)) :
    IncomingMessage.videoImageData m = .ok dataThumbNail := by
  rw [Payload.encoded, hthumb] at hm
  obtain rfl := Option.some.inj hm
  show unwrap (base64Decoded (base64EncodedString dataThumbNail)) = _
  rw [base64Decoded_encoded]
  rfl

end

/-- For every payload, sender and date: the document that is sent is read back as a message
of the same sender, date and content exactly when it is no audio message or is read at the
very second of its date. -/
theorem message_roundtrips_iff (c : RNCryptor) (vc : ChatViewController) (incoming : IncomingMessage)
    (user : FUser) (date : Date) (link messageId : String) (payload : Payload)
    (m : MessageDictionary) (h : Reads c vc incoming)
    (hyears : vc.formatter.InYears date) (hm : payload.encoded vc user date link = some m) :
    RoundTrips vc incoming user date link payload { m with messageId := some messageId } ↔
      payload.type ≠ kAUDIO ∨ incoming.now = ⌊date⌋ := by
  obtain ⟨content, hcreated, hcontent⟩ := createMessage_content h hm hyears
  constructor
  · rintro ⟨message, hmessage, -, -, hdate, -⟩
    rw [StoredMessage.createMessage_messageId, hcreated] at hmessage
    obtain rfl := Option.some.inj (Except.ok.inj hmessage)
    by_cases haudio : payload.type = kAUDIO
    · exact .inr (by rwa [if_pos haudio] at hdate)
    · exact .inl haudio
  · intro hkept
    refine ⟨_, (StoredMessage.createMessage_messageId incoming messageId).trans hcreated, rfl, rfl, ?_,
      hcontent, ?_⟩
    · rcases hkept with haudio | hnow
      · exact if_neg haudio
      · rw [hnow, ite_self]
    · rintro video dataThumbNail rfl hthumb
      have himage : IncomingMessage.videoImageData m = .ok dataThumbNail :=
        videoImageData_encoded hm hthumb
      exact himage

/-- A cipher that only marks its data. -/
def markingCryptor : RNCryptor where
  encrypt data password := if password = "" then none else some (3 :: 1 :: data)
  decrypt _ data :=
    match data with
    | 3 :: 1 :: data => some data
    | _ => none
  decrypt_encrypt h := by
    obtain ⟨-, hdata⟩ := Option.ite_none_left_eq_some.mp h
    obtain rfl := Option.some.inj hdata
    rfl

def aliceSends : ChatViewController :=
  { ChatViewController.aliceScreen with
    encryptText := fun chatRoomId message =>
      (ENcryption.encryptText markingCryptor chatRoomId message).getD "" }

def bobReads : IncomingMessage :=
  { bobIncoming with
    decryptText := fun chatRoomId encryptMessage =>
      (ENcryption.decryptText markingCryptor chatRoomId encryptMessage).getD "" }

theorem reads_alice_bob : Reads markingCryptor aliceSends bobReads where
  chatRoomId := rfl
  offset := rfl
  encryptText _ := rfl
  decryptText _ _ _ h := by simp only [bobReads, h, Option.getD_some]

def alice : FUser := FUser.make "alice" none 0 0 "" "Alice" "" "" "" "" "" ""

theorem message_roundtrips_text :
    ∃ m, (Payload.text "hello").encoded aliceSends alice (secondOf 7) "" = some m ∧
      RoundTrips aliceSends bobReads alice (secondOf 7) "" (.text "hello")
        { m with messageId := some "m1" } :=
  ⟨_, rfl, (message_roundtrips_iff markingCryptor aliceSends bobReads alice (secondOf 7) "" "m1"
    (.text "hello") _ reads_alice_bob (inYears_secondOf (by decide)) rfl).mpr (.inl (by decide))⟩

/-- An audio message of 2019, read at the beginning of the calendar: it gets the date of the
reading. -/
theorem message_roundtrips_fails_audio :
    Reads markingCryptor aliceSends bobReads ∧ aliceSends.formatter.InYears (secondOf 7) ∧
      ∃ m, (Payload.audio "memo.m4a").encoded aliceSends alice (secondOf 7) "memo" = some m ∧
        ¬ RoundTrips aliceSends bobReads alice (secondOf 7) "memo" (.audio "memo.m4a")
          { m with messageId := some "m1" } := by
  refine ⟨reads_alice_bob, inYears_secondOf (by decide), _, rfl, ?_⟩
  rintro ⟨message, hmessage, -, -, hdate, -⟩
  obtain rfl := Option.some.inj (Except.ok.inj hmessage)
  have hfloor : ⌊secondOf 7⌋ = 63684316807 := by rw [secondOf, Int.floor_natCast]; rfl
  rw [hfloor] at hdate
  exact absurd hdate (by decide)

end LiChat
