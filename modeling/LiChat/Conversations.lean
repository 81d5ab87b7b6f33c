import LiChat.EncryptedMessages
import LiChat.MessageCopies
import LiChat.ShownRows

/-!
# Conversations

A message goes from the screen that it is written on through the queues of the devices to the
screen of each member, who reads what has been written.
-/

namespace LiChat
open ChatScreen Windows WriteQueues

/-- A call of `ChatViewController.sendMessage` that sends its message: the dictionary encodes a
payload, encrypted with fresh random data. -/
structure WrittenMessage (cc : RNCryptor.CommonCrypto) where
  vc : ChatViewController
  user : FUser
  payload : Payload
  random : RNCryptor.RandomData
  date : Date
  link : String
  messageId : String
  messageDictionary : MessageDictionary
  encryptText : ∀ message, ENcryption.encryptText (RNCryptor.v3 cc random) vc.chatRoomId message =
    some (vc.encryptText vc.chatRoomId message)
  inYears : vc.formatter.InYears date
  encoded : payload.encoded vc user date link = some messageDictionary
  memberIds_nodup : vc.memberIds.Nodup

def IncomingMessage.withRNCryptor (cc : RNCryptor.CommonCrypto) (random : RNCryptor.RandomData)
    (currentId : Uid) (chatRoomId : String) (formatter : DateFormatter) (now : Date) :
    IncomingMessage where
  currentId := currentId
  chatRoomId := chatRoomId
  formatter := formatter
  now := now
  decryptText chatRoomId encryptMessage :=
    (ENcryption.decryptText (RNCryptor.v3 cc random) chatRoomId encryptMessage).getD ""

namespace WrittenMessage
variable {cc : RNCryptor.CommonCrypto} (x : WrittenMessage cc)

def sent : SendCall :=
  ⟨x.user.objectId, x.vc.chatRoomId, x.messageId, x.vc.memberIds, x.messageDictionary⟩

def dateString : String := x.vc.formatter.string x.date

/-- The message that the device is to show: the payload of the sender, at the time that the
sender's clock has shown.  Audio messages get the time of reading. -/
def readBy (incoming : IncomingMessage) : Option JSQMessage :=
  let date : ℚ := if x.payload.type = kAUDIO then incoming.now
    else (x.vc.formatter.wallClock x.date - incoming.formatter.secondsFromGMT : ℤ)
  (x.payload.content x.vc x.link (incoming.returnOutGoingStatusForUser x.user.objectId)).map
    (⟨x.user.objectId, x.user.firstname, date, ·⟩)

variable {x}

theorem encoded_of_string_eq {vc : ChatViewController} {user : FUser} {date date' : Date}
    {link : String} {f : DateFormatter} (payload : Payload)
    (h : f.string date' = vc.formatter.string date) :
    payload.encoded { vc with formatter := f } user date' link =
      payload.encoded vc user date link := by
  cases payload <;>
    simp only [Payload.encoded, OutgoingMessages.text, OutgoingMessages.picture,
      OutgoingMessages.video, OutgoingMessages.audio, OutgoingMessages.location,
      OutgoingMessages.base, h, ChatViewController.encryptType]

theorem createMessage_written (x : WrittenMessage cc) (random : RNCryptor.RandomData)
    (currentId : Uid) (f : DateFormatter) (now : Date) :
    let incoming := IncomingMessage.withRNCryptor cc random currentId x.vc.chatRoomId f now
    ∃ message, incoming.createMessage x.messageDictionary = .ok (some message) ∧
      x.readBy incoming = some message := by
  intro incoming
  set date : Date := ((x.vc.formatter.wallClock x.date - f.secondsFromGMT : ℤ) : ℚ) with hdate
  have hclock : f.wallClock date = x.vc.formatter.wallClock x.date := by
    rw [DateFormatter.wallClock, hdate, Int.floor_intCast, sub_add_cancel]
  have hstring : f.string date = x.vc.formatter.string x.date := by
    rw [DateFormatter.string, DateFormatter.string, hclock]
  have hencoded : x.payload.encoded { x.vc with formatter := f } x.user date x.link =
      some x.messageDictionary := (encoded_of_string_eq x.payload hstring).trans x.encoded
  have hyears : f.InYears date := by
    rw [DateFormatter.InYears, hclock]
    exact x.inYears
  have hreads : Reads (RNCryptor.v3 cc x.random) { x.vc with formatter := f } incoming :=
    ⟨rfl, rfl, x.encryptText, fun chatRoomId encryptMessage message h => by
      have hsame : ENcryption.decryptText (RNCryptor.v3 cc random) chatRoomId encryptMessage =
          some message := h
      simp only [incoming, IncomingMessage.withRNCryptor, hsame, Option.getD_some]⟩
  obtain ⟨content, hcreated, hcontent⟩ := createMessage_content hreads hencoded hyears
  refine ⟨_, hcreated, ?_⟩
  have hsame : x.payload.content x.vc x.link
      (incoming.returnOutGoingStatusForUser x.user.objectId) = some content := by
    rw [← hcontent]
    cases x.payload <;> rfl
  simp only [readBy, hsame, Option.map_some, hdate, Int.floor_intCast]
  rfl

end WrittenMessage

namespace MessageWorld

/-- The documents of Message/userId/chatRoomId that the device of `userId` has. -/
def collection (w : MessageWorld) (userId : Uid) (chatRoomId : String) : List MessageDocument :=
  w.sent.filterMap fun m =>
    (view w.firestore userId ⟨userId, chatRoomId, m.messageId⟩).map (⟨m.messageId, ·⟩)

/-- The device has its copy of the message. -/
def Has (w : MessageWorld) (userId : Uid) (chatRoomId : String) (m : SendCall) : Prop :=
  m.chatRoomId = chatRoomId ∧ (view w.firestore userId (m.path userId)).isSome

variable {w w' : MessageWorld} {userId : Uid} {chatRoomId : String} {d : MessageDocument}

/-- The action writes a message of the app, if it writes one. -/
def Writes (cc : RNCryptor.CommonCrypto) : MessageAction → Prop
  | .sendMessage m => ∃ x : WrittenMessage cc, x.sent = m
  | _ => True

/-- The documents are copies, and the messages are the written ones, under ids of their own. -/
structure Readable (cc : RNCryptor.CommonCrypto) (w : MessageWorld) : Prop where
  consistent : Consistent w
  nodup : (w.sent.map SendCall.messageId).Nodup
  written : ∀ m ∈ w.sent, ∃ x : WrittenMessage cc, x.sent = m

variable {cc : RNCryptor.CommonCrypto}

theorem Readable.step (h : Readable cc w) {a : MessageAction} (ha : Writes cc a)
    (hs : w.step a = some w') : Readable cc w' := by
  have hdistinct : DistinctMembers a := by
    cases a with
    | sendMessage m =>
      obtain ⟨x, rfl⟩ := ha
      exact x.memberIds_nodup
    | _ => trivial
  refine ⟨h.consistent.step hdistinct hs, ?_, ?_⟩
  · rcases step_sent hs with hsame | ⟨m, -, hnew, hsent⟩
    · rw [hsame]
      exact h.nodup
    · rw [hsent, List.map_append]
      exact List.nodup_append.mpr ⟨h.nodup, List.nodup_singleton _, fun id hid id' hid' heq => by
        obtain rfl := List.mem_singleton.mp hid'
        exact hnew (heq ▸ hid)⟩
  · rcases step_sent hs with hsame | ⟨m, rfl, -, hsent⟩
    · rw [hsame]
      exact h.written
    · rw [hsent]
      intro m' hm'
      rcases List.mem_append.mp hm' with hold | hnew
      · exact h.written m' hold
      · obtain rfl := List.mem_singleton.mp hnew
        exact ha

theorem readable_of_run {actions : List MessageAction} (hactions : ∀ a ∈ actions, Writes cc a)
    (hrun : Runs.exec MessageWorld.step init actions = some w) : Readable cc w := by
  have hguard : Runs.Guarded MessageWorld.step (fun _ a => Writes cc a) init actions :=
    Runs.guarded_of_forall hactions init
  exact (Runs.always_of_guarded (I := Readable cc) (fun _ _ _ hI ha hs => hI.step ha hs)
    ⟨consistent_init, List.nodup_nil, fun _ h => absurd h List.not_mem_nil⟩ hguard).last hrun

/-- The document is the copy of this message. -/
def CopyOf (x : WrittenMessage cc) (d : MessageDocument) : Prop :=
  d.documentID = x.messageId ∧
    (d.data = x.sent.data ∨ ∃ readDate, d.data = OutgoingMessages.markRead readDate x.sent.data)

theorem CopyOf.messageId {x : WrittenMessage cc} (h : CopyOf x d) :
    d.data.messageId = some d.documentID := by
  obtain ⟨hid, hd | ⟨readDate, hd⟩⟩ := h
  all_goals rw [hd, hid]; rfl

theorem CopyOf.dateString {x : WrittenMessage cc} (h : CopyOf x d) :
    d.data.date = some x.dateString := by
  have hdate : x.messageDictionary.date = some x.dateString :=
    (StoredMessage.encoded_fields x.encoded).2.2.1
  obtain ⟨-, hd | ⟨readDate, hd⟩⟩ := h
  all_goals rw [hd]; exact hdate

theorem CopyOf.stored {x : WrittenMessage cc} (h : CopyOf x d) : StoredMessage d.data := by
  have hsent : StoredMessage x.sent.data := .sendMessage x.messageId x.encoded x.inYears
  obtain ⟨-, hd | ⟨readDate, hd⟩⟩ := h
  · exact hd ▸ hsent
  · exact hd ▸ .updateMessage readDate hsent

theorem CopyOf.legit {x : WrittenMessage cc} (h : CopyOf x d) : d.data.legit := by
  have htype : d.data.type = some x.payload.type := by
    have hsent := (StoredMessage.encoded_fields x.encoded).2.2.2
    obtain ⟨-, hd | ⟨readDate, hd⟩⟩ := h
    all_goals rw [hd]; exact hsent
  rw [MessageDictionary.legit, htype]
  cases x.payload <;> rfl

theorem CopyOf.createMessage {x : WrittenMessage cc} (h : CopyOf x d)
    (hroom : x.vc.chatRoomId = chatRoomId) (random : RNCryptor.RandomData) (currentId : Uid)
    (f : DateFormatter) (now : Date) :
    let incoming := IncomingMessage.withRNCryptor cc random currentId chatRoomId f now
    ∃ message, incoming.createMessage d.data = .ok (some message) ∧
      x.readBy incoming = some message := by
  subst hroom
  obtain ⟨message, hcreated, hread⟩ := x.createMessage_written random currentId f now
  refine ⟨message, ?_, hread⟩
  obtain ⟨-, hd | ⟨readDate, hd⟩⟩ := h
  all_goals rw [hd]; exact hcreated

theorem Readable.copyOf (h : Readable cc w) (hd : d ∈ w.collection userId chatRoomId) :
    ∃ x : WrittenMessage cc, x.sent ∈ w.sent ∧ w.Has userId chatRoomId x.sent ∧ CopyOf x d := by
  obtain ⟨m, hm, hview⟩ := List.mem_filterMap.mp hd
  obtain ⟨data, hdata, rfl⟩ := Option.map_eq_some_iff.mp hview
  obtain ⟨m', hm', hpath, hcopy⟩ := h.consistent.copies.view hdata
  obtain ⟨memberId, -, heq⟩ := List.mem_map.mp hpath
  obtain ⟨rfl, rfl, hid⟩ : memberId = userId ∧ m'.chatRoomId = chatRoomId ∧
      m'.messageId = m.messageId := by simpa [SendCall.path] using heq
  obtain ⟨x, rfl⟩ := h.written m' hm'
  refine ⟨x, hm', ⟨rfl, ?_⟩, hid.symm, hcopy⟩
  rw [heq, hdata]
  rfl

theorem Readable.mem_collection (h : Readable cc w) {x : WrittenMessage cc} (hx : x.sent ∈ w.sent)
    (hhas : w.Has userId chatRoomId x.sent) :
    ∃ d ∈ w.collection userId chatRoomId, CopyOf x d := by
  obtain ⟨rfl, hsome⟩ := hhas
  obtain ⟨data, hdata⟩ := Option.isSome_iff_exists.mp hsome
  have hmem : (⟨x.messageId, data⟩ : MessageDocument) ∈ w.collection userId x.sent.chatRoomId :=
    List.mem_filterMap.mpr ⟨x.sent, hx, Option.map_eq_some_iff.mpr ⟨data, hdata, rfl⟩⟩
  obtain ⟨y, hy, -, hcopy⟩ := h.copyOf hmem
  have hid : x.sent.messageId = y.sent.messageId := hcopy.1
  have hsame : x.sent = y.sent := List.inj_on_of_nodup_map h.nodup hx hy hid
  exact ⟨_, hmem, rfl, hsame ▸ hcopy.2⟩

theorem Readable.nodup_collection (h : Readable cc w) :
    ((w.collection userId chatRoomId).map MessageDocument.documentID).Nodup := by
  refine h.nodup.sublist ?_
  rw [collection]
  induction w.sent with
  | nil => exact List.Sublist.refl _
  | cons m sent ih =>
    rw [List.filterMap_cons, List.map_cons]
    cases view w.firestore userId ⟨userId, chatRoomId, m.messageId⟩ with
    | none => exact ih.cons _
    | some data => exact ih.cons_cons _

def Readable.messageCollection (h : Readable cc w) (userId : Uid) (chatRoomId : String) :
    MessageCollection where
  documents := w.collection userId chatRoomId
  distinct := h.nodup_collection
  messageId_eq d hd := by
    obtain ⟨x, -, -, hcopy⟩ := h.copyOf hd
    exact hcopy.messageId
  stored d hd _ := by
    obtain ⟨x, -, -, hcopy⟩ := h.copyOf hd
    exact hcopy.stored

end MessageWorld

section FirstPage
variable {docs : List MessageDocument} {d : MessageDocument}

theorem mem_firstPage_or (hdate : ∀ d ∈ docs, d.data.date.isSome)
    (hlegit : ∀ d ∈ docs, d.data.legit) (hd : d ∈ docs) :
    d.data ∈ firstPage docs ∨
      (firstPage docs).length = 10 ∧ ∀ m ∈ firstPage docs, d.dateString ≤ m.dateString := by
  have hlength : (initialMessages docs).length = (lastElevenMessages docs).length :=
    initialMessages_length_of_legit fun d' hd' => hlegit d' (mem_of_mem_lastEleven hd')
  have hten : 10 ≤ (initialMessages docs).length → (firstPage docs).length = 10 := by
    intro hle
    rw [firstPage, List.rtake, List.length_drop]
    omega
  rcases List.mem_append.mp ((lastEleven_append_older hdate).mem_iff.mpr hd) with hwindow | holder
  · have hmem : d.data ∈ initialMessages docs :=
      mem_initialMessages.mpr ⟨d, hwindow, rfl, hlegit d hd⟩
    have hsplit := List.take_append_drop ((initialMessages docs).length - 10) (initialMessages docs)
    rw [← hsplit] at hmem
    rcases List.mem_append.mp hmem with hbefore | hpage
    · -- the eleventh message is cut off
      right
      have hpos := List.length_pos_of_mem hbefore
      rw [List.length_take] at hpos
      refine ⟨hten (by omega), fun m hm => ?_⟩
      have hascending := ascending_sorted_filter (dictionaryFromSnapshots (lastElevenMessages docs))
      rw [← initialMessages, ← hsplit] at hascending
      exact (List.pairwise_append.mp hascending).2.2 d.data hbefore m hm
    · exact .inl hpage
  · right
    have heleven : (lastElevenMessages docs).length = 11 := by
      by_contra hne
      have hle : (lastElevenMessages docs).length ≤ 11 := List.length_take_le _ _
      have hnil : olderMessages docs = [] := older_eq_nil (lt_of_le_of_ne hle hne)
      rw [hnil] at holder
      cases holder
    refine ⟨hten (by omega), fun m hm => ?_⟩
    obtain ⟨d', hd', rfl, -⟩ := mem_initialMessages.mp (List.mem_of_mem_drop hm)
    exact dateString_older_le holder hd'

theorem exists_of_mem_firstPage {m : MessageDictionary} (h : m ∈ firstPage docs) :
    ∃ d ∈ docs, d.data = m := by
  obtain ⟨d, hd, rfl, -⟩ := mem_initialMessages.mp (List.mem_of_mem_drop h)
  exact ⟨d, mem_of_mem_lastEleven hd, rfl⟩

theorem pairwise_firstPage (docs : List MessageDocument) :
    (firstPage docs).Pairwise fun m m' => m.dateString ≤ m'.dateString :=
  (ascending_sorted_filter _).sublist (List.drop_sublist _ _)

theorem nodup_firstPage
    (h : ((dictionaryFromSnapshots docs).map MessageDictionary.messageId).Nodup) :
    ((firstPage docs).map MessageDictionary.messageId).Nodup :=
  (nodup_legitMessages (nodup_lastEleven h)).sublist ((List.drop_sublist _ _).map _)

end FirstPage

namespace MessageWorld
variable {cc : RNCryptor.CommonCrypto} {w : MessageWorld} {currentId : Uid} {chatRoomId : String}

/-- The document of a written message, on the device of a member. -/
def DocumentOf (w : MessageWorld) (currentId : Uid) (chatRoomId : String) (x : WrittenMessage cc)
    (m : MessageDictionary) : Prop :=
  (x.sent ∈ w.sent ∧ w.Has currentId chatRoomId x.sent) ∧ ∃ d, d.data = m ∧ CopyOf x d

/-- The first page is a list of written messages, each of which is made into what has been
written. -/
theorem Readable.firstPage (h : Readable cc w) (currentId : Uid) (chatRoomId : String) :
    ∃ shown : List (WrittenMessage cc),
      List.Forall₂ (DocumentOf w currentId chatRoomId) shown
        (firstPage (w.collection currentId chatRoomId)) := by
  refine Rows.exists_forall₂ fun m hm => ?_
  obtain ⟨d, hd, hdata⟩ := exists_of_mem_firstPage hm
  obtain ⟨x, hx, hhas, hcopy⟩ := h.copyOf hd
  exact ⟨x, ⟨hx, hhas⟩, d, hdata, hcopy⟩

theorem DocumentOf.messageId {x : WrittenMessage cc} {m : MessageDictionary}
    (h : DocumentOf w currentId chatRoomId x m) : some x.messageId = m.messageId := by
  obtain ⟨-, d, rfl, hcopy⟩ := h
  rw [hcopy.messageId, hcopy.1]

theorem DocumentOf.dateString {x : WrittenMessage cc} {m : MessageDictionary}
    (h : DocumentOf w currentId chatRoomId x m) : x.dateString = m.dateString := by
  obtain ⟨-, d, rfl, hcopy⟩ := h
  rw [MessageDictionary.dateString, hcopy.dateString, Option.getD_some]

theorem DocumentOf.readBy {x : WrittenMessage cc} {m : MessageDictionary}
    (h : DocumentOf w currentId chatRoomId x m) (random : RNCryptor.RandomData) (f : DateFormatter)
    (now : Date) {message : JSQMessage}
    (hmessage : (IncomingMessage.withRNCryptor cc random currentId chatRoomId f now).createMessage m =
      .ok (some message)) :
    x.readBy (IncomingMessage.withRNCryptor cc random currentId chatRoomId f now) = some message := by
  obtain ⟨⟨-, hroom, -⟩, d, rfl, hcopy⟩ := h
  obtain ⟨message', hcreated, hread⟩ := hcopy.createMessage hroom random currentId f now
  rw [hcreated] at hmessage
  rw [hread, Option.some.inj (Except.ok.inj hmessage)]

theorem Readable.legit (h : Readable cc w) :
    ∀ d ∈ w.collection currentId chatRoomId, d.data.legit := by
  intro d hd
  obtain ⟨x, -, -, hcopy⟩ := h.copyOf hd
  exact hcopy.legit

theorem Readable.date_isSome (h : Readable cc w) :
    ∀ d ∈ w.collection currentId chatRoomId, d.data.date.isSome := by
  intro d hd
  obtain ⟨x, -, -, hcopy⟩ := h.copyOf hd
  rw [hcopy.dateString]
  rfl

theorem Readable.openChat (h : Readable cc w) (random : RNCryptor.RandomData) (currentId : Uid)
    (chatRoomId : String) (f : DateFormatter) (now : Date) :
    let incoming := IncomingMessage.withRNCryptor cc random currentId chatRoomId f now
    ∃ s shown, incoming.chatScreen.openChat (w.collection currentId chatRoomId) = .ok s ∧
      s.chat.objectMessages = LiChat.firstPage (w.collection currentId chatRoomId) ∧
      List.Forall₂ (DocumentOf w currentId chatRoomId) shown
        (LiChat.firstPage (w.collection currentId chatRoomId)) ∧
      List.Forall₂ (fun (x : WrittenMessage cc) message => x.readBy incoming = some message) shown
        s.chat.messages := by
  intro incoming
  have hshowable : ∀ d ∈ w.collection currentId chatRoomId, d.data.legit →
      Showable incoming.chatScreen d.data := fun d hd hlegit =>
    ((h.messageCollection currentId chatRoomId).stored d hd hlegit).showable incoming
  obtain ⟨s, hs, -, hloaded, -, -, hobject, -⟩ := openChat_ok hshowable
  have hpage : s.chat.objectMessages = LiChat.firstPage (w.collection currentId chatRoomId) := by
    rw [hobject, hloaded]
    rfl
  -- what stands beside each document of the page
  have hrows : List.Forall₂ (fun m message => incoming.createMessage m = .ok (some message))
      (LiChat.firstPage (w.collection currentId chatRoomId)) s.chat.messages := by
    rw [← hpage]
    refine openChat_rows (fun m _ message hmessage => ?_) hs
    simp only [IncomingMessage.chatScreen] at hmessage
    split at hmessage
    · next heq => rw [heq, hmessage]
    · cases hmessage
  obtain ⟨shown, hshown⟩ := h.firstPage currentId chatRoomId
  refine ⟨s, shown, hs, hpage, hshown, (Rows.forall₂_comp hshown hrows).imp ?_⟩
  rintro x message ⟨m, hm, hmessage⟩
  exact hm.readBy random f now hmessage

theorem Readable.has_iff (h : Readable cc w) (hdone : ∀ userId, w.firestore.queue userId = [])
    {m : SendCall} (hm : m ∈ w.sent) :
    w.Has currentId chatRoomId m ↔ m.chatRoomId = chatRoomId ∧ currentId ∈ m.memberIds ∧
      m.path currentId ∉ w.deleted := by
  refine and_congr_right fun _ => ?_
  constructor
  · intro hsome
    obtain ⟨d, hd⟩ := Option.isSome_iff_exists.mp hsome
    obtain ⟨m', hm', hpath, -⟩ := h.consistent.copies.view hd
    obtain ⟨memberId, hmember, heq⟩ := List.mem_map.mp hpath
    obtain ⟨rfl, -, hid⟩ : memberId = currentId ∧ m'.chatRoomId = m.chatRoomId ∧
        m'.messageId = m.messageId := by simpa [SendCall.path] using heq
    obtain rfl := List.inj_on_of_nodup_map h.nodup hm' hm hid
    refine ⟨hmember, fun hdeleted => ?_⟩
    have hgone : view w.firestore memberId (m'.path memberId) = none :=
      (h.consistent.deleted _ hdeleted).2.1
    rw [hgone] at hsome
    cases hsome
  · rintro ⟨hmember, hdeleted⟩
    have hview : view w.firestore currentId = w.firestore.store := by
      rw [view, hdone currentId]
      rfl
    rw [hview]
    rcases h.consistent.comes m hm _ (List.mem_map_of_mem hmember) hdeleted with hset | hsome
    · rw [hdone m.senderId] at hset
      exact absurd hset List.not_mem_nil
    · exact hsome

end MessageWorld

open MessageWorld in
/-- For every run of the devices, in any order, and at every moment of it: a member who opens the
chat is shown what has been written in the messages that the device has, each once and by their
date strings, and no message is left out but for ten that are not older.  When the queues are
done, the device has the messages that have been sent to the member, except for those that the
member has deleted. -/
theorem opened_chat_reads_what_was_written (cc : RNCryptor.CommonCrypto)
    (actions : List MessageAction) (w : MessageWorld) (hactions : ∀ a ∈ actions, Writes cc a)
    (hrun : Runs.exec MessageWorld.step init actions = some w) (random : RNCryptor.RandomData)
    (currentId : Uid) (chatRoomId : String) (f : DateFormatter) (now : Date) :
    let incoming := IncomingMessage.withRNCryptor cc random currentId chatRoomId f now
    (∃ s shown, incoming.chatScreen.openChat (w.collection currentId chatRoomId) = .ok s ∧
      List.Forall₂ (fun (x : WrittenMessage cc) message => x.readBy incoming = some message) shown
        s.chat.messages ∧
      (∀ x ∈ shown, x.sent ∈ w.sent ∧ w.Has currentId chatRoomId x.sent) ∧
      (shown.map WrittenMessage.messageId).Nodup ∧
      (shown.Pairwise fun x y => x.dateString ≤ y.dateString) ∧
      ∀ m ∈ w.sent, w.Has currentId chatRoomId m → (∃ x ∈ shown, x.sent = m) ∨
        shown.length = 10 ∧ ∀ x ∈ shown, m.data.dateString ≤ x.dateString) ∧
    ((∀ userId, w.firestore.queue userId = []) → ∀ m ∈ w.sent,
      (w.Has currentId chatRoomId m ↔ m.chatRoomId = chatRoomId ∧ currentId ∈ m.memberIds ∧
        m.path currentId ∉ w.deleted)) := by
  intro incoming
  have h := readable_of_run hactions hrun
  refine ⟨?_, fun hdone m hm => h.has_iff hdone hm⟩
  obtain ⟨s, shown, hs, -, hshown, hread⟩ := h.openChat random currentId chatRoomId f now
  set docs := w.collection currentId chatRoomId
  have hsent : ∀ x ∈ shown, x.sent ∈ w.sent ∧ w.Has currentId chatRoomId x.sent :=
    ((List.forall₂_and_left shown _).mp (hshown.imp fun _ _ hm => ⟨hm.1, hm⟩)).1
  have hids : shown.map (fun x => some x.messageId) =
      (firstPage docs).map MessageDictionary.messageId :=
    Rows.map_eq_of_forall₂ (hshown.imp fun _ _ hm => hm.messageId)
  have hdates : shown.map WrittenMessage.dateString =
      (firstPage docs).map MessageDictionary.dateString :=
    Rows.map_eq_of_forall₂ (hshown.imp fun _ _ hm => hm.dateString)
  refine ⟨s, shown, hs, ?_, hsent, ?_, ?_, fun m hm hhas => ?_⟩
  · exact hread
  · have hnodup := nodup_firstPage (h.messageCollection currentId chatRoomId).nodup_messageId
    refine List.Nodup.of_map some ?_
    rw [List.map_map]
    exact hids ▸ hnodup
  · rw [← List.pairwise_map (f := WrittenMessage.dateString) (R := (· ≤ ·)), hdates,
      List.pairwise_map]
    exact pairwise_firstPage docs
  · obtain ⟨x, rfl⟩ := h.written m hm
    -- its document is on the first page, or ten messages there are not older
    obtain ⟨d, hd, hcopy⟩ := h.mem_collection hm hhas
    rcases mem_firstPage_or h.date_isSome h.legit hd with hmem | ⟨hten, holder⟩
    · left
      have hid : some x.messageId ∈ shown.map fun y => some y.messageId := by
        rw [hids, ← hcopy.1, ← hcopy.messageId]
        exact List.mem_map_of_mem hmem
      obtain ⟨y, hy, heq⟩ := List.mem_map.mp hid
      exact ⟨y, hy, List.inj_on_of_nodup_map h.nodup (hsent y hy).1 hm (Option.some.inj heq)⟩
    · right
      refine ⟨hshown.length_eq.trans hten, fun y hy => ?_⟩
      have hdateString : x.sent.data.dateString = d.dateString := by
        rw [MessageDocument.dateString, MessageDictionary.dateString, MessageDictionary.dateString,
          hcopy.dateString, CopyOf.dateString (d := ⟨x.messageId, x.sent.data⟩) ⟨rfl, .inl rfl⟩]
      have hmem : y.dateString ∈ (firstPage docs).map MessageDictionary.dateString :=
        hdates ▸ List.mem_map_of_mem hy
      obtain ⟨m', hm', heq⟩ := List.mem_map.mp hmem
      rw [hdateString, ← heq]
      exact holder m' hm'

def bob : FUser := FUser.make "bob" none 0 0 "" "Bob" "" "" "" "" "" ""

def greets (user : FUser) (i : Fin 60) : WrittenMessage RNCryptor.xorCrypto where
  vc :=
    { chatRoomId := "alicebob"
      memberIds := ["alice", "bob"]
      membersToPush := ["alice", "bob"]
      currentUser := some user
      coordinates := none
      formatter := dateFormatter 0
      encryptText := fun chatRoomId message => (ENcryption.encryptText
        (RNCryptor.v3 RNCryptor.xorCrypto RNCryptor.zeroRandomData) chatRoomId message).getD ""
      contentsOfFile := fun _ => none
      videoThumbNail := fun _ => none }
  user := user
  payload := .text "hello"
  random := RNCryptor.zeroRandomData
  date := secondOf i
  link := ""
  messageId := Nat.repr i
  messageDictionary := _
  encryptText _ := rfl
  inYears := inYears_secondOf i.isLt
  encoded := rfl
  memberIds_nodup := (by decide : ["alice", "bob"].Nodup)

def aliceGreetsTwice : List MessageAction :=
  [.sendMessage (greets alice 1).sent, .commit "alice", .commit "alice",
    .sendMessage (greets alice 0).sent, .commit "alice", .commit "alice"]

def bobGreetsTenTimes : List MessageAction :=
  [2, 3, 4, 5, 6, 7, 8, 9, 10, 11].map fun i => .sendMessage (greets bob i).sent

theorem writes_greetings :
    ∀ a ∈ aliceGreetsTwice ++ bobGreetsTenTimes, MessageWorld.Writes RNCryptor.xorCrypto a := by
  intro a ha
  rcases List.mem_append.mp ha with ha | ha
  · simp only [aliceGreetsTwice, List.mem_cons, List.not_mem_nil, or_false] at ha
    rcases ha with rfl | rfl | rfl | rfl | rfl | rfl
    · exact ⟨_, rfl⟩
    · trivial
    · trivial
    · exact ⟨_, rfl⟩
    · trivial
    · trivial
  · obtain ⟨i, -, rfl⟩ := List.mem_map.mp ha
    exact ⟨_, rfl⟩

open MessageWorld in
/-- Bob opens the chat an hour ahead of Alice: of the twelve messages, the ten on the screen are
in order, and no other one is newer. -/
theorem opened_chat_reads_greeting :
    ∃ w, Runs.exec MessageWorld.step init (aliceGreetsTwice ++ bobGreetsTenTimes) = some w ∧
      (w.collection "bob" "alicebob").length = 12 ∧
      ∃ s, ∃ shown : List (WrittenMessage RNCryptor.xorCrypto),
        (IncomingMessage.withRNCryptor RNCryptor.xorCrypto RNCryptor.zeroRandomData "bob" "alicebob"
          (dateFormatter 3600) 0).chatScreen.openChat (w.collection "bob" "alicebob") = .ok s ∧
        List.Forall₂ (fun x message => x.readBy (IncomingMessage.withRNCryptor RNCryptor.xorCrypto
          RNCryptor.zeroRandomData "bob" "alicebob" (dateFormatter 3600) 0) = some message) shown
            s.chat.messages ∧
        shown.length = 10 ∧ (shown.map WrittenMessage.messageId).Nodup ∧
        (shown.Pairwise fun x y => x.dateString ≤ y.dateString) ∧
        ∀ m ∈ w.sent, w.Has "bob" "alicebob" m → (∃ x ∈ shown, x.sent = m) ∨
          ∀ x ∈ shown, m.data.dateString ≤ x.dateString := by
  obtain ⟨w, hrun, htwelve, hten⟩ :
      ∃ w, Runs.exec MessageWorld.step init (aliceGreetsTwice ++ bobGreetsTenTimes) = some w ∧
        (w.collection "bob" "alicebob").length = 12 ∧
        ((IncomingMessage.withRNCryptor RNCryptor.xorCrypto RNCryptor.zeroRandomData "bob" "alicebob"
          (dateFormatter 3600) 0).chatScreen.openChat
            (w.collection "bob" "alicebob")).toOption.any
              (fun s => s.chat.messages.length = 10) = true :=
    Runs.exists_of_any (by decide +kernel)
  obtain ⟨⟨s, shown, hs, hread, -, hnodup, hdates, hall⟩, -⟩ := opened_chat_reads_what_was_written
    RNCryptor.xorCrypto (aliceGreetsTwice ++ bobGreetsTenTimes) w writes_greetings hrun
    RNCryptor.zeroRandomData "bob" "alicebob" (dateFormatter 3600) 0
  refine ⟨w, hrun, htwelve, s, shown, hs, hread, ?_, hnodup, hdates, fun m hm hhas => ?_⟩
  · rw [hs] at hten
    exact hread.length_eq.trans (of_decide_eq_true hten)
  · exact (hall m hm hhas).imp_right And.right

end LiChat
