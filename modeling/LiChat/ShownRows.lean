import LiChat.ChatMirror
import LiChat.General.Rows

/-!
# The rows of the chat screen

The screen keeps the documents and the messages made of them in two arrays.  Deletions and
taps on a bubble find the document of a row in one array and the message in the other.
-/

namespace LiChat
open ChatScreen

inductive Presented where
  | photoBrowser (imageUrl : String)
  | map (latitude longitude : ℚ)
  | moviePlayer (videoUrl : String)
  | nothing
  deriving DecidableEq

/-- `messages[index]` -/
def shownMessage (s : ChatState JSQMessage) (index : ℕ) : Except Trap JSQMessage :=
  match s.messages[index]? with
  | some message => .ok message
  | none => .error .index

/-- Each media item is cast to the class that its type promises. -/
def didTapMessageBubbleAt (row : ℕ) (s : ChatState JSQMessage) : Except Trap Presented := do
  let messageDictionary ← objectMessage s row
  let messageType ← unwrap messageDictionary.type
  if messageType = kPICTURE then
    let message ← shownMessage s row
    match message.content with
    | .photo imageUrl _ => return .photoBrowser imageUrl
    | _ => .error .unwrap
  else if messageType = kLOCATION then
    let message ← shownMessage s row
    match message.content with
    | .location latitude longitude _ => return .map latitude longitude
    | _ => .error .unwrap
  else if messageType = kVIDEO then
    let message ← shownMessage s row
    match message.content with
    | .video videoUrl _ => return .moviePlayer videoUrl
    | _ => .error .unwrap
  else return .nothing

namespace OutgoingMessages

def deleteMessage (currentId : Uid) (withId chatRoomId : String) : MessagePath :=
  ⟨currentId, chatRoomId, withId⟩

end OutgoingMessages

namespace IncomingMessage

/-- The screen after a deletion, and the document whose deletion it asks for. -/
def didDeleteMessageAt (incoming : IncomingMessage) (row : ℕ) (s : ChatState JSQMessage) :
    Except Trap (ChatState JSQMessage × MessagePath) := do
  let messageDictionary ← objectMessage s row
  let messageId ← unwrap messageDictionary.messageId
  return ({ s with
      objectMessages := s.objectMessages.eraseIdx row
      messages := s.messages.eraseIdx row },
    OutgoingMessages.deleteMessage incoming.currentId messageId incoming.chatRoomId)

theorem map_didDeleteMessageAt (incoming : IncomingMessage) (row : ℕ) (s : ChatState JSQMessage) :
    (incoming.didDeleteMessageAt row s).map Prod.fst = ChatScreen.didDeleteMessageAt row s := by
  unfold didDeleteMessageAt ChatScreen.didDeleteMessageAt
  cases objectMessage s row with
  | error t => rfl
  | ok m =>
    cases hid : m.messageId with
    | none => simp only [bind, Except.bind, hid, unwrap, Except.map]
    | some messageId =>
      simp only [bind, Except.bind, hid, unwrap]
      rfl

theorem didDeleteMessageAt_ok (incoming : IncomingMessage) {row : ℕ} {s : ChatState JSQMessage}
    {m : MessageDictionary} {messageId : String} (hm : s.objectMessages[row]? = some m)
    (hid : m.messageId = some messageId) :
    incoming.didDeleteMessageAt row s = .ok
      ({ s with
        objectMessages := s.objectMessages.eraseIdx row
        messages := s.messages.eraseIdx row },
      ⟨incoming.currentId, incoming.chatRoomId, messageId⟩) := by
  have hdocument : objectMessage s row = .ok m := by rw [objectMessage, hm]
  simp only [didDeleteMessageAt, hdocument, hid, unwrap, bind, Except.bind]
  rfl

def atTime (incoming : IncomingMessage) (now : Date) : IncomingMessage := { incoming with now := now }

end IncomingMessage

/-- What can happen to an open chat.  The first query looks for its window in the given
documents, the background query returns all of the given ones. -/
inductive RowEvent where
  | initialSnapshot (snapshot : Option (List MessageDocument))
  | backgroundSnapshot (snapshot : Option (List MessageDocument))
  | added (document : MessageDocument)
  | modified (document : MessageDocument)
  | didTapLoadEarlierMessagesButton
  | didDeleteMessageAt (row : ℕ)

def RowEvent.documents : RowEvent → List MessageDocument
  | .initialSnapshot (some documents) => lastElevenMessages documents
  | .initialSnapshot none => []
  | .backgroundSnapshot (some documents) => documents
  | .backgroundSnapshot none => []
  | .added document => [document]
  | .modified document => [document]
  | .didTapLoadEarlierMessagesButton => []
  | .didDeleteMessageAt _ => []

/-- The screen, and all documents delivered to it so far. -/
structure RowChat where
  screen : Except Trap (OpenChat JSQMessage)
  delivered : List MessageDocument

namespace RowChat

/-- A chat whose first query has not been answered. -/
def opening : RowChat := ⟨.ok ⟨{}, .notIssued⟩, []⟩

/-- The screen after one event, at the given time; `none` if the event is not possible. -/
def screenStep (vc : ChatScreen JSQMessage) (s : OpenChat JSQMessage) :
    RowEvent → Option (Except Trap (OpenChat JSQMessage))
  | .initialSnapshot snapshot =>
    if s.chat.initialLoadComplete then none
    else
      match snapshot with
      | some documents => some (vc.openChat documents)
      | none => some (.ok { s with chat := { s.chat with initialLoadComplete := true } })
  | .backgroundSnapshot snapshot => vc.step (.ok s) (.backgroundSnapshot snapshot)
  | .added document =>
    if s.chat.initialLoadComplete then vc.step (.ok s) (.added document.data) else none
  | .modified document =>
    some ((updateMessage document.data s.chat).map fun chat => { s with chat := chat })
  | .didTapLoadEarlierMessagesButton => vc.step (.ok s) .didTapLoadEarlierMessagesButton
  | .didDeleteMessageAt row =>
    if row < s.chat.messages.length then
      some ((ChatScreen.didDeleteMessageAt row s.chat).map fun chat => { s with chat := chat })
    else none

/-- One event, with the time at which it happens; after a trap there is none. -/
def step (incoming : IncomingMessage) : RowChat → Date × RowEvent → Option RowChat
  | ⟨.error _, _⟩, _ => none
  | ⟨.ok s, delivered⟩, (now, e) =>
    (screenStep (incoming.atTime now).chatScreen s e).map fun screen =>
      ⟨screen, delivered ++ e.documents⟩

end RowChat

namespace ChatScreen
variable {Message : Type} {vc : ChatScreen Message} {R : MessageDictionary → Message → Prop}
  {s s' : ChatState Message}

variable (R) in
/-- Each message stands beside its document. -/
def Paired (s : ChatState Message) : Prop := List.Forall₂ R s.objectMessages s.messages

variable (vc R) in
/-- What the screen makes of the document may stand beside it. -/
def Makes (m : MessageDictionary) : Prop := ∀ message, vc.createMessage m = some message → R m message

theorem getPictureMessage_rows (h : s.getPictureMessage = .ok s') :
    s'.objectMessages = s.objectMessages ∧ s'.messages = s.messages := by
  obtain ⟨links, -, h⟩ := bind_eq_ok h
  rw [← Except.ok.inj h]
  exact ⟨rfl, rfl⟩

theorem updateIncoming_rows {m : MessageDictionary} (h : vc.updateIncoming m s = .ok s') :
    s'.objectMessages = s.objectMessages ∧ s'.messages = s.messages ∧
      s'.loadedMessages = s.loadedMessages := by
  obtain ⟨senderId, -, h⟩ := bind_eq_ok h
  split_ifs at h
  · obtain ⟨messageId, -, h⟩ := bind_eq_ok h
    rw [← Except.ok.inj h]
    exact ⟨rfl, rfl, rfl⟩
  · rw [← Except.ok.inj h]
    exact ⟨rfl, rfl, rfl⟩

theorem insertInitialLoadMessages_rows {m : MessageDictionary} (hm : Makes vc R m)
    (h : vc.insertInitialLoadMessages m s = .ok s') (hs : Paired R s) :
    Paired R s' ∧ s'.loadedMessages = s.loadedMessages := by
  obtain ⟨s₁, hs₁, h⟩ := bind_eq_ok h
  obtain ⟨hobject, hmessages, hloaded⟩ := updateIncoming_rows hs₁
  have hrows : Paired R s₁ := by
    rw [Paired, hobject, hmessages]
    exact hs
  cases hmessage : vc.createMessage m with
  | none =>
    rw [hmessage] at h
    rw [← Except.ok.inj h]
    exact ⟨hrows, hloaded⟩
  | some message =>
    rw [hmessage] at h
    rw [← Except.ok.inj h]
    exact ⟨List.rel_append hrows (.cons (hm message hmessage) .nil), hloaded⟩

theorem insertNewMessage_rows {m : MessageDictionary} (hm : Makes vc R m)
    (h : vc.insertNewMessage m s = .ok s') (hs : Paired R s) :
    Paired R s' ∧ s'.loadedMessages = s.loadedMessages := by
  obtain ⟨message, hmessage, h⟩ := bind_eq_ok h
  rw [← Except.ok.inj h]
  exact ⟨.cons (hm message (unwrap_eq_ok hmessage)) hs, rfl⟩

theorem addedMessage_rows {item : MessageDictionary} (hitem : item.legit → Makes vc R item)
    (h : vc.addedMessage item s = .ok s') (hs : Paired R s) : Paired R s' := by
  unfold addedMessage at h
  split_ifs at h with hlegit
  · obtain ⟨s₁, hs₁, h⟩ := bind_eq_ok h
    have hrows : Paired R s₁ := by
      unfold addNewPictureMessageLink at hs₁
      split_ifs at hs₁
      · obtain ⟨link, -, hs₁⟩ := bind_eq_ok hs₁
        rw [← Except.ok.inj hs₁]
        exact hs
      · rw [← Except.ok.inj hs₁]
        exact hs
    exact (insertInitialLoadMessages_rows (hitem hlegit) h hrows).1
  · rw [← Except.ok.inj h]
    exact hs

variable (vc) in
theorem showMessages_rows {insert : MessageDictionary → ChatState Message →
      Except Trap (ChatState Message)}
    (hinsert : ∀ m t t', Makes vc R m → insert m t = .ok t' → Paired R t →
      Paired R t' ∧ t'.loadedMessages = t.loadedMessages)
    {range : List ℤ} (hloaded : ∀ m ∈ s.loadedMessages, Makes vc R m)
    (h : range.foldlM (showMessage insert) s = .ok s') (hs : Paired R s) : Paired R s' := by
  refine (showMessages_keeps (P := fun t => t.loadedMessages = s.loadedMessages ∧ Paired R t)
    (fun _ _ hkept => hkept) (fun m t t' hm ht hkept => ?_) h ⟨rfl, hs⟩).2
  obtain ⟨hrows, hsame⟩ := hinsert m t t' (hloaded m (hkept.1 ▸ hm)) ht hkept.2
  exact ⟨hsame.trans hkept.1, hrows⟩

theorem loadMoreMessages_rows {maxNumber minNumber : ℤ}
    (hloaded : ∀ m ∈ s.loadedMessages, Makes vc R m)
    (h : vc.loadMoreMessages maxNumber minNumber s = .ok s') (hs : Paired R s) : Paired R s' := by
  obtain ⟨range, -, h⟩ := bind_eq_ok h
  obtain ⟨s₁, hs₁, h⟩ := bind_eq_ok h
  have hrows : Paired R s₁ := showMessages_rows vc
    (fun m t t' hm ht hrows => insertNewMessage_rows hm ht hrows) (by simpa using hloaded) hs₁ hs
  rw [← Except.ok.inj h]
  exact hrows

theorem openChat_rows {documents : List MessageDocument} {s : OpenChat Message}
    (hloaded : ∀ m ∈ initialMessages documents, Makes vc R m)
    (h : vc.openChat documents = .ok s) : Paired R s.chat := by
  obtain ⟨loadedMessages, hload, hinsert⟩ := bind_eq_ok h
  have hload := unwrap_eq_ok hload
  rw [loadMessages_eq] at hload
  obtain rfl := Option.some.inj hload
  obtain ⟨s₁, hs₁, hpictures⟩ := bind_eq_ok hinsert
  obtain ⟨s₂, hs₂, hend⟩ := bind_eq_ok hpictures
  obtain ⟨range, -, hpage⟩ := bind_eq_ok hs₁
  obtain ⟨s₀, hs₀, hheader⟩ := bind_eq_ok hpage
  have hrows : Paired R s₀ := showMessages_rows vc
    (fun m t t' hm ht hrows => insertInitialLoadMessages_rows hm ht hrows) (by simpa using hloaded)
    hs₀ .nil
  obtain ⟨hobject, hmessages⟩ := getPictureMessage_rows hs₂
  rw [← Except.ok.inj hend]
  show List.Forall₂ R s₂.objectMessages s₂.messages
  rw [hobject, hmessages, ← Except.ok.inj hheader]
  exact hrows

theorem oldMessagesLoaded_rows {documents : List MessageDocument}
    (h : oldMessagesLoaded documents s = .ok s') (hs : Paired R s) : Paired R s' := by
  obtain ⟨older, -, h⟩ := bind_eq_ok h
  obtain ⟨s₁, hs₁, h⟩ := bind_eq_ok h
  obtain ⟨hobject, hmessages⟩ := getPictureMessage_rows hs₁
  rw [← Except.ok.inj h]
  show List.Forall₂ R s₁.objectMessages s₁.messages
  rw [hobject, hmessages]
  exact hs

end ChatScreen

/-- `createMessage` has built the message from the document at some time. -/
def BuiltFrom (incoming : IncomingMessage) (m : MessageDictionary) (message : JSQMessage) : Prop :=
  ∃ now, (incoming.atTime now).createMessage m = .ok (some message)

/-- A document of the app, as it was delivered and under its id. -/
def DeliveredAs (delivered : List MessageDocument) (m : MessageDictionary) : Prop :=
  ∃ d ∈ delivered, d.data = m ∧ m.messageId = some d.documentID ∧ StoredMessage m

/-- What a tap presents fits the type of the document and its values. -/
inductive Presents (m : MessageDictionary) : Presented → Prop
  | picture {imageUrl : String} : m.type = some kPICTURE → m.picture = some imageUrl →
      Presents m (.photoBrowser imageUrl)
  | location {latitude longitude : ℚ} : m.type = some kLOCATION → m.latitude = some latitude →
      m.longitude = some longitude → Presents m (.map latitude longitude)
  | video {videoUrl : String} : m.type = some kVIDEO → m.video = some videoUrl →
      Presents m (.moviePlayer videoUrl)
  | other {type : String} : m.type = some type → type ≠ kPICTURE → type ≠ kLOCATION →
      type ≠ kVIDEO → Presents m .nothing

/-- The content of a message is that of its document's type. -/
inductive ContentOf (m : MessageDictionary) : JSQMessageContent → Prop
  | text {text : String} : m.type = some kTEXT → ContentOf m (.text text)
  | photo {imageUrl : String} {outgoing : Bool} : m.type = some kPICTURE → m.picture = some imageUrl →
      ContentOf m (.photo imageUrl outgoing)
  | video {videoUrl : String} {outgoing : Bool} : m.type = some kVIDEO → m.video = some videoUrl →
      ContentOf m (.video videoUrl outgoing)
  | audio {audioUrl : String} {outgoing : Bool} : m.type = some kAUDIO →
      ContentOf m (.audio audioUrl outgoing)
  | location {latitude longitude : ℚ} {outgoing : Bool} : m.type = some kLOCATION →
      m.latitude = some latitude → m.longitude = some longitude →
      ContentOf m (.location latitude longitude outgoing)

theorem content_new {senderId : Option Uid} {senderDisplayName : Option String} {date : Option Date}
    {content : JSQMessageContent} {message : JSQMessage}
    (h : JSQMessage.new senderId senderDisplayName date content = .ok message) :
    message.content = content := by
  obtain ⟨_, -, h⟩ := bind_eq_ok h
  obtain ⟨_, -, h⟩ := bind_eq_ok h
  obtain ⟨_, -, h⟩ := bind_eq_ok h
  rw [← Except.ok.inj h]

theorem contentOf_createMessage {incoming : IncomingMessage} {m : MessageDictionary}
    {message : JSQMessage} (h : incoming.createMessage m = .ok (some message)) :
    ContentOf m message.content := by
  obtain ⟨type, htype, h⟩ := bind_eq_ok h
  have htype := unwrap_eq_ok htype
  have hsome : ∀ {r : Except Trap JSQMessage}, some <$> r = .ok (some message) → r = .ok message := by
    intro r hr
    obtain ⟨message', hmessage, heq⟩ := map_eq_ok hr
    rw [hmessage, Option.some.inj heq]
  split_ifs at h with htext hpicture hvideo haudio hlocation
  · obtain ⟨text, -, h⟩ := bind_eq_ok (hsome h)
    rw [content_new h]
    exact .text (htype.trans (congrArg some htext))
  · obtain ⟨userId, -, h⟩ := bind_eq_ok (hsome h)
    obtain ⟨imageUrl, hurl, h⟩ := bind_eq_ok h
    rw [content_new h]
    exact .photo (htype.trans (congrArg some hpicture)) (unwrap_eq_ok hurl)
  · obtain ⟨videoUrl, hurl, h⟩ := bind_eq_ok (hsome h)
    obtain ⟨userId, -, h⟩ := bind_eq_ok h
    rw [content_new h]
    exact .video (htype.trans (congrArg some hvideo)) (unwrap_eq_ok hurl)
  · obtain ⟨userId, -, h⟩ := bind_eq_ok (hsome h)
    obtain ⟨audioUrl, -, h⟩ := bind_eq_ok h
    rw [content_new h]
    exact .audio (htype.trans (congrArg some haudio))
  · obtain ⟨text, -, h⟩ := bind_eq_ok (hsome h)
    obtain ⟨userId, -, h⟩ := bind_eq_ok h
    obtain ⟨latitude, hlatitude, h⟩ := bind_eq_ok h
    obtain ⟨longitude, hlongitude, h⟩ := bind_eq_ok h
    rw [content_new h]
    exact .location (htype.trans (congrArg some hlocation)) (unwrap_eq_ok hlatitude)
      (unwrap_eq_ok hlongitude)
  · cases h

theorem didTapMessageBubbleAt_ok {s : ChatState JSQMessage} {row : ℕ} {m : MessageDictionary}
    {message : JSQMessage} (hobject : s.objectMessages[row]? = some m)
    (hmessage : s.messages[row]? = some message) (hcontent : ContentOf m message.content) :
    ∃ presented, didTapMessageBubbleAt row s = .ok presented ∧ Presents m presented := by
  have hdocument : objectMessage s row = .ok m := by rw [objectMessage, hobject]
  have hshown : shownMessage s row = .ok message := by rw [shownMessage, hmessage]
  unfold didTapMessageBubbleAt
  rw [hdocument]
  generalize hkind : message.content = content at hcontent
  cases hcontent with
  | text htype =>
    refine ⟨.nothing, ?_, .other htype (by decide) (by decide) (by decide)⟩
    simp only [bind, Except.bind, htype, unwrap]
    rfl
  | photo htype hurl =>
    refine ⟨_, ?_, .picture htype hurl⟩
    simp only [bind, Except.bind, htype, unwrap, hshown, hkind]
    rfl
  | video htype hurl =>
    refine ⟨_, ?_, .video htype hurl⟩
    simp only [bind, Except.bind, htype, unwrap, hshown, hkind]
    rfl
  | audio htype =>
    refine ⟨.nothing, ?_, .other htype (by decide) (by decide) (by decide)⟩
    simp only [bind, Except.bind, htype, unwrap]
    rfl
  | location htype hlatitude hlongitude =>
    refine ⟨_, ?_, .location htype hlatitude hlongitude⟩
    simp only [bind, Except.bind, htype, unwrap, hshown, hkind]
    rfl

/-- Documents of a legit type are the app's and stored under their ids. -/
def AppDocuments (documents : List MessageDocument) : Prop :=
  ∀ d ∈ documents, d.data.legit → d.data.messageId = some d.documentID ∧ StoredMessage d.data

/-- Documents of bad types may look like anything. -/
def RowEvent.OfApp : RowEvent → Prop
  | .initialSnapshot (some documents) => AppDocuments documents
  | .backgroundSnapshot (some documents) => AppDocuments documents
  | .added document => AppDocuments [document]
  | .modified document => AppDocuments [document]
  | _ => True

/-- The events that may trap: a tap for which the older messages are not there, and a modified
document without an id. -/
def RowEvent.MayTrap (s : OpenChat JSQMessage) : RowEvent → Prop
  | .didTapLoadEarlierMessagesButton => s.background ≠ .completed
  | .modified document => document.data.messageId = none
  | _ => False

/-- The arrays are in step, a deletion asks for the document of the message that is shown, and
a tap on a bubble presents what the document says. -/
structure RowsInStep (incoming : IncomingMessage) (s : ChatState JSQMessage)
    (delivered : List MessageDocument) : Prop where
  length_eq : s.objectMessages.length = s.messages.length
  built : ∀ (row : ℕ) (m : MessageDictionary) (message : JSQMessage),
    s.objectMessages[row]? = some m → s.messages[row]? = some message → BuiltFrom incoming m message
  deletes : ∀ row < s.messages.length, ∃ d ∈ delivered, s.objectMessages[row]? = some d.data ∧
    incoming.didDeleteMessageAt row s = .ok
      ({ s with
        objectMessages := s.objectMessages.eraseIdx row
        messages := s.messages.eraseIdx row },
      ⟨incoming.currentId, incoming.chatRoomId, d.documentID⟩)
  taps : ∀ row < s.messages.length, ∃ m presented, s.objectMessages[row]? = some m ∧
    didTapMessageBubbleAt row s = .ok presented ∧ Presents m presented

theorem DeliveredAs.mono {delivered delivered' : List MessageDocument} {m : MessageDictionary}
    (h : DeliveredAs delivered m) (hsub : delivered ⊆ delivered') : DeliveredAs delivered' m := by
  obtain ⟨d, hd, hm⟩ := h
  exact ⟨d, hsub hd, hm⟩

theorem AppDocuments.deliveredAs {documents delivered : List MessageDocument}
    (h : AppDocuments documents) {d : MessageDocument} (hd : d ∈ documents)
    (hdelivered : d ∈ delivered) (hlegit : d.data.legit) : DeliveredAs delivered d.data := by
  obtain ⟨hid, hstored⟩ := h d hd hlegit
  exact ⟨d, hdelivered, rfl, hid, hstored⟩

theorem DeliveredAs.showable {delivered : List MessageDocument} {m : MessageDictionary}
    (incoming : IncomingMessage) (h : DeliveredAs delivered m) : Showable incoming.chatScreen m := by
  obtain ⟨d, -, -, -, hstored⟩ := h
  exact hstored.showable incoming

namespace RowChat
variable {incoming : IncomingMessage} {delivered : List MessageDocument}

variable (incoming delivered) in
/-- A delivered document of the app and a message built from it. -/
def Row (m : MessageDictionary) (message : JSQMessage) : Prop :=
  DeliveredAs delivered m ∧ BuiltFrom incoming m message

variable (incoming delivered) in
/-- The invariant: the pages are right, and all that is loaded or shown was delivered. -/
structure Kept (s : OpenChat JSQMessage) : Prop where
  pages : Pages s
  loaded : ∀ m ∈ s.chat.loadedMessages, DeliveredAs delivered m
  rows : Paired (Row incoming delivered) s.chat

theorem makes_row {m : MessageDictionary} (now : Date) (h : DeliveredAs delivered m) :
    Makes (incoming.atTime now).chatScreen (Row incoming delivered) m := by
  intro message hmessage
  refine ⟨h, now, ?_⟩
  simp only [IncomingMessage.chatScreen] at hmessage
  cases hcreate : (incoming.atTime now).createMessage m with
  | error t =>
    rw [hcreate] at hmessage
    cases hmessage
  | ok created =>
    rw [hcreate] at hmessage
    rw [show created = some message from hmessage]

theorem Kept.shown {s : OpenChat JSQMessage} (h : Kept incoming delivered s) :
    ∀ m ∈ s.chat.objectMessages, DeliveredAs delivered m := by
  intro m hm
  obtain ⟨row, hrow⟩ := List.mem_iff_getElem?.mp hm
  have hlt : row < s.chat.messages.length := by
    rw [← List.Forall₂.length_eq h.rows]
    exact (List.getElem?_eq_some_iff.mp hrow).1
  obtain ⟨m', message, hm', -, hrow'⟩ := Rows.forall₂_getElem? h.rows hlt
  rw [hrow] at hm'
  exact Option.some.inj hm' ▸ hrow'.1

theorem Kept.rowsInStep {s : OpenChat JSQMessage} (h : Kept incoming delivered s) :
    RowsInStep incoming s.chat delivered where
  length_eq := List.Forall₂.length_eq h.rows
  built := by
    intro row m message hm hmessage
    obtain ⟨m', message', hm', hmessage', hrow⟩ :=
      Rows.forall₂_getElem? h.rows (List.getElem?_eq_some_iff.mp hmessage).1
    obtain rfl := Option.some.inj (hm.symm.trans hm')
    obtain rfl := Option.some.inj (hmessage.symm.trans hmessage')
    exact hrow.2
  deletes := by
    intro row hrow
    obtain ⟨m, message, hm, -, ⟨d, hd, rfl, hid, -⟩, -⟩ := Rows.forall₂_getElem? h.rows hrow
    exact ⟨d, hd, hm, incoming.didDeleteMessageAt_ok hm hid⟩
  taps := by
    intro row hrow
    obtain ⟨m, message, hm, hmessage, -, now, hbuilt⟩ := Rows.forall₂_getElem? h.rows hrow
    obtain ⟨presented, hpresented, hfits⟩ :=
      didTapMessageBubbleAt_ok hm hmessage (contentOf_createMessage hbuilt)
    exact ⟨m, presented, hm, hpresented, hfits⟩

theorem Kept.mono {s : OpenChat JSQMessage} {delivered' : List MessageDocument}
    (h : Kept incoming delivered s) (hsub : delivered ⊆ delivered') : Kept incoming delivered' s where
  pages := h.pages
  loaded m hm := (h.loaded m hm).mono hsub
  rows := h.rows.imp fun _ _ hrow => ⟨hrow.1.mono hsub, hrow.2⟩

theorem Kept.samePages {s : OpenChat JSQMessage} (h : Kept incoming delivered s)
    {chat : ChatState JSQMessage} (hsame : SamePages s.chat chat)
    (hrows : Paired (Row incoming delivered) chat) :
    Kept incoming delivered { s with chat := chat } where
  pages := pages_of_samePages hsame h.pages
  loaded := hsame.loaded ▸ h.loaded
  rows := hrows

section Events
variable {s : OpenChat JSQMessage} (now : Date)

variable (incoming delivered) in
theorem openChat_kept {documents : List MessageDocument} (happ : AppDocuments documents) :
    ∃ s, (incoming.atTime now).chatScreen.openChat documents = .ok s ∧
      Kept incoming (delivered ++ lastElevenMessages documents) s := by
  obtain ⟨s, hopen, hpages, hloaded, -⟩ := openChat_ok fun d hd hlegit =>
    (happ d hd hlegit).2.showable (incoming.atTime now)
  have hdelivered : ∀ m ∈ initialMessages documents,
      DeliveredAs (delivered ++ lastElevenMessages documents) m := by
    intro m hm
    obtain ⟨d, hd, rfl, hlegit⟩ := mem_initialMessages.mp hm
    exact happ.deliveredAs (mem_of_mem_lastEleven hd) (List.mem_append_right _ hd) hlegit
  exact ⟨s, hopen, hpages, hloaded ▸ hdelivered,
    openChat_rows (fun m hm => makes_row now (hdelivered m hm)) hopen⟩

theorem background_kept (h : Kept incoming delivered s) (hback : s.background = .issued)
    {documents : List MessageDocument} (happ : AppDocuments documents) :
    ∃ chat, oldMessagesLoaded documents s.chat = .ok chat ∧
      Kept incoming (delivered ++ documents) ⟨chat, .completed⟩ := by
  have hpages := h.pages
  rw [Pages, hback] at hpages
  have hmore := h.mono (List.subset_append_left delivered documents)
  obtain ⟨chat, hchat, hnext, hloaded, -⟩ := oldMessagesLoaded_ok hpages.1 hpages.2
    (fun m hm => (h.loaded m hm).showable incoming)
    fun d hd hlegit => (happ d hd hlegit).2.showable incoming
  refine ⟨chat, hchat, Or.inl hnext, ?_, oldMessagesLoaded_rows hchat hmore.rows⟩
  show ∀ m ∈ chat.loadedMessages, _
  rw [hloaded]
  exact List.forall_mem_append.mpr ⟨forall_mem_legitMessages.mpr fun d hd hlegit =>
    happ.deliveredAs hd (List.mem_append_right _ hd) hlegit, hmore.loaded⟩

theorem added_kept (h : Kept incoming delivered s) {document : MessageDocument}
    (happ : AppDocuments [document]) :
    ∃ chat, (incoming.atTime now).chatScreen.addedMessage document.data s.chat = .ok chat ∧
      Kept incoming (delivered ++ [document]) { s with chat := chat } := by
  have hitem : document.data.legit → DeliveredAs (delivered ++ [document]) document.data := by
    intro hlegit
    exact happ.deliveredAs List.mem_cons_self (List.mem_append_right _ List.mem_cons_self) hlegit
  have hmore := h.mono (List.subset_append_left delivered [document])
  obtain ⟨chat, hchat, -⟩ :=
    addedMessage_ok (fun hlegit => (hitem hlegit).showable (incoming.atTime now)) s.chat
  have hsame := (incoming.atTime now).chatScreen.addedMessage_outcome document.data s.chat
  rw [hchat] at hsame
  exact ⟨chat, hchat, hmore.samePages hsame
    (addedMessage_rows (fun hlegit => makes_row now (hitem hlegit)) hchat hmore.rows)⟩

theorem tap_kept (h : Kept incoming delivered s) (hback : s.background = .completed)
    (hheader : s.chat.showLoadEarlierMessagesHeader = true) :
    ∃ chat, (incoming.atTime now).chatScreen.loadMoreMessages s.chat.maxMessageNumber
        s.chat.minMessageNumber s.chat = .ok chat ∧
      Kept incoming delivered { s with chat := chat } := by
  have hpages := h.pages
  rw [Pages, hback] at hpages
  obtain ⟨count, hcount, hlt⟩ := exists_count hpages hheader
  obtain ⟨chat, hchat, hloaded, -⟩ := loadMoreMessages_ok s.chat.maxMessageNumber hcount hlt
    (nextBounds hpages hcount) fun m hm => (h.loaded m hm).showable (incoming.atTime now)
  have hlater := (incoming.atTime now).chatScreen.loadMoreMessages_later s.chat.maxMessageNumber
    hpages hheader
  rw [hchat] at hlater
  refine ⟨chat, hchat, ?_, hloaded ▸ h.loaded,
    loadMoreMessages_rows (fun m hm => makes_row now (h.loaded m hm)) hchat h.rows⟩
  rw [Pages, hback]
  exact Or.inr hlater

theorem delete_kept (h : Kept incoming delivered s) {row : ℕ} (hrow : row < s.chat.messages.length) :
    ∃ chat, ChatScreen.didDeleteMessageAt row s.chat = .ok chat ∧
      Kept incoming delivered { s with chat := chat } := by
  obtain ⟨m, message, hm, -, ⟨d, -, rfl, hid, -⟩, -⟩ := Rows.forall₂_getElem? h.rows hrow
  refine ⟨{ s.chat with
    objectMessages := s.chat.objectMessages.eraseIdx row
    messages := s.chat.messages.eraseIdx row }, ?_, ?_⟩
  · rw [← incoming.map_didDeleteMessageAt, incoming.didDeleteMessageAt_ok hm hid]
    rfl
  · exact h.samePages ⟨rfl, rfl, rfl, rfl, rfl, rfl⟩ (Rows.forall₂_eraseIdx h.rows row)

theorem modified_kept (h : Kept incoming delivered s) (document : MessageDocument) :
    (ChatScreen.updateMessage document.data s.chat = .ok s.chat ∧
      Kept incoming (delivered ++ [document]) s) ∨
    (∃ t, ChatScreen.updateMessage document.data s.chat = .error t) ∧
      document.data.messageId = none := by
  have hmore := h.mono (List.subset_append_left delivered [document])
  cases hid : document.data.messageId with
  | some messageId =>
    have hshown : ∀ m ∈ s.chat.objectMessages, Showable incoming.chatScreen m :=
      fun m hm => (h.shown m hm).showable incoming
    exact .inl ⟨updateMessage_eq hid hshown, hmore⟩
  | none =>
    rcases updateMessage_none (s := s.chat) hid with hok | htrap
    · exact .inl ⟨hok, hmore⟩
    · exact .inr ⟨⟨.unwrap, htrap⟩, rfl⟩

theorem firstPage_of_header (h : Kept incoming delivered s) (hback : s.background ≠ .completed)
    (hheader : s.chat.showLoadEarlierMessagesHeader = true) : FirstPage s.chat := by
  have hpages := h.pages
  cases hcases : s.background with
  | notIssued =>
    rw [Pages, hcases] at hpages
    exact absurd (hheader.symm.trans hpages) (by decide)
  | issued =>
    rw [Pages, hcases] at hpages
    exact hpages.1
  | failed =>
    rw [Pages, hcases] at hpages
    exact hpages
  | completed => exact absurd hcases hback

theorem screenStep_kept (h : Kept incoming delivered s) {e : RowEvent} (happ : e.OfApp)
    {screen : Except Trap (OpenChat JSQMessage)}
    (hstep : screenStep (incoming.atTime now).chatScreen s e = some screen) :
    (∃ s', screen = .ok s' ∧ Kept incoming (delivered ++ e.documents) s') ∨
      (∃ t, screen = .error t) ∧ e.MayTrap s := by
  cases e with
  | initialSnapshot snapshot =>
    simp only [screenStep, Option.ite_none_left_eq_some] at hstep
    cases snapshot with
    | none =>
      obtain rfl := Option.some.inj hstep.2
      refine .inl ⟨_, rfl, ?_⟩
      rw [RowEvent.documents, List.append_nil]
      exact h.samePages ⟨rfl, rfl, rfl, rfl, rfl, rfl⟩ h.rows
    | some documents =>
      obtain ⟨s', hopen, hkept⟩ := openChat_kept incoming delivered now happ
      obtain rfl := Option.some.inj hstep.2
      exact .inl ⟨s', hopen, hkept⟩
  | backgroundSnapshot snapshot =>
    simp only [screenStep, ChatScreen.step, Option.ite_none_right_eq_some] at hstep
    obtain ⟨hback, hstep⟩ := hstep
    cases snapshot with
    | none =>
      obtain rfl := Option.some.inj hstep
      have hpages := h.pages
      rw [Pages, hback] at hpages
      refine .inl ⟨_, rfl, ?_⟩
      rw [RowEvent.documents, List.append_nil]
      exact ⟨hpages.1, h.loaded, h.rows⟩
    | some documents =>
      obtain ⟨chat, hchat, hkept⟩ := background_kept h hback happ
      obtain rfl := Option.some.inj hstep
      rw [hchat]
      exact .inl ⟨_, rfl, hkept⟩
  | added document =>
    simp only [screenStep, ChatScreen.step, Option.ite_none_right_eq_some] at hstep
    obtain ⟨chat, hchat, hkept⟩ := added_kept now h happ
    obtain rfl := Option.some.inj hstep.2
    rw [hchat]
    exact .inl ⟨_, rfl, hkept⟩
  | modified document =>
    obtain rfl := Option.some.inj hstep
    rcases modified_kept h document with ⟨hok, hkept⟩ | ⟨⟨t, htrap⟩, hid⟩
    · rw [hok]
      exact .inl ⟨s, rfl, hkept⟩
    · rw [htrap]
      exact .inr ⟨⟨t, rfl⟩, hid⟩
  | didTapLoadEarlierMessagesButton =>
    simp only [screenStep, ChatScreen.step, Option.ite_none_right_eq_some] at hstep
    obtain ⟨hheader, hstep⟩ := hstep
    by_cases hback : s.background = .completed
    · obtain ⟨chat, hchat, hkept⟩ := tap_kept now h hback hheader
      obtain rfl := Option.some.inj hstep
      rw [hchat, RowEvent.documents, List.append_nil]
      exact .inl ⟨_, rfl, hkept⟩
    · -- before the background query has been answered, the tap traps
      have hfirst := firstPage_of_header h hback hheader
      rw [(incoming.atTime now).chatScreen.loadMoreMessages_firstPage hfirst] at hstep
      obtain rfl := Option.some.inj hstep
      exact .inr ⟨⟨_, rfl⟩, hback⟩
  | didDeleteMessageAt row =>
    simp only [screenStep, Option.ite_none_right_eq_some] at hstep
    obtain ⟨chat, hchat, hkept⟩ := delete_kept h hstep.1
    obtain rfl := Option.some.inj hstep.2
    rw [hchat, RowEvent.documents, List.append_nil]
    exact .inl ⟨_, rfl, hkept⟩

end Events

theorem opening_kept : Kept incoming [] ⟨{}, .notIssued⟩ where
  pages := rfl
  loaded _ hm := absurd hm List.not_mem_nil
  rows := .nil

variable (incoming) in
theorem exec_kept (events : List (Date × RowEvent)) (hevents : ∀ e ∈ events, e.2.OfApp) {w : RowChat}
    (hrun : Runs.exec (step incoming) opening events = some w) :
    (∃ s, w.screen = .ok s ∧ Kept incoming w.delivered s) ∨
      (∃ t, w.screen = .error t) ∧ ∃ before e w₀ s₀, events = before ++ [e] ∧
        Runs.exec (step incoming) opening before = some w₀ ∧ w₀.screen = .ok s₀ ∧ e.2.MayTrap s₀ := by
  induction events using List.reverseRecOn generalizing w with
  | nil =>
    obtain rfl := Option.some.inj hrun
    exact .inl ⟨_, rfl, opening_kept⟩
  | append_singleton before e ih =>
    rw [Runs.exec_append, Option.bind_eq_some_iff] at hrun
    obtain ⟨w₀, hw₀, hlast⟩ := hrun
    rw [Runs.exec_cons, Option.bind_eq_some_iff] at hlast
    obtain ⟨w', hstep, hw'⟩ := hlast
    obtain rfl := Option.some.inj hw'
    obtain ⟨screen, delivered⟩ := w₀
    rcases ih (fun a ha => hevents a (List.mem_append_left _ ha)) hw₀ with
      ⟨s, rfl, hkept⟩ | ⟨⟨t, rfl⟩, -⟩
    · obtain ⟨now, e⟩ := e
      obtain ⟨screen', hscreen, rfl⟩ := Option.map_eq_some_iff.mp hstep
      rcases screenStep_kept now hkept (hevents (now, e) (by simp)) hscreen with hok | ⟨htrap, hmay⟩
      · exact .inl hok
      · exact .inr ⟨htrap, before, (now, e), _, s, rfl, hw₀, rfl, hmay⟩
    · cases hstep

end RowChat

/-- For all documents of the app among any of bad types, and all orders of loads, listener
events, taps and deletions: in every state of the chat the two arrays are in step, each
deletion asks for the document of the message at its row, and each tap on a bubble presents
what the document's type says.  Nothing traps but a tap that the background query has not
been answered for and a modified document without an id. -/
theorem rows_stay_in_step (incoming : IncomingMessage) (events : List (Date × RowEvent))
    (hevents : ∀ e ∈ events, e.2.OfApp) (w : RowChat)
    (hrun : Runs.exec (RowChat.step incoming) RowChat.opening events = some w) :
    (∃ s, w.screen = .ok s ∧ RowsInStep incoming s.chat w.delivered) ∨
      (∃ t, w.screen = .error t) ∧ ∃ before e w₀ s₀, events = before ++ [e] ∧
        Runs.exec (RowChat.step incoming) RowChat.opening before = some w₀ ∧
        w₀.screen = .ok s₀ ∧ e.2.MayTrap s₀ := by
  rcases RowChat.exec_kept incoming events hevents hrun with ⟨s, hs, hkept⟩ | htrap
  · exact .inl ⟨s, hs, hkept.rowsInStep⟩
  · exact .inr htrap

theorem MessageCollection.appDocuments (collection : MessageCollection) :
    AppDocuments collection.documents :=
  fun d hd hlegit => ⟨collection.messageId_eq d hd, collection.stored d hd hlegit⟩

/-- A sticker that another client has stored without an id. -/
def sticker : MessageDocument := ⟨"s", { type := some "sticker" }⟩

/-- Twelve texts are paged in, a sticker arrives and one text is deleted. -/
def twelveTextsEvents : List (Date × RowEvent) :=
  [(0, .initialSnapshot (some twelveTexts.documents)), (1, .added sticker),
    (2, .backgroundSnapshot (some [textOfAlice 0])), (3, .didTapLoadEarlierMessagesButton),
    (4, .didDeleteMessageAt 5)]

theorem twelveTexts_stay_in_step :
    ∃ w, Runs.exec (RowChat.step bobIncoming) RowChat.opening twelveTextsEvents = some w ∧
      ((∃ s, w.screen = .ok s ∧ RowsInStep bobIncoming s.chat w.delivered) ∨
        (∃ t, w.screen = .error t) ∧ ∃ before e w₀ s₀, twelveTextsEvents = before ++ [e] ∧
          Runs.exec (RowChat.step bobIncoming) RowChat.opening before = some w₀ ∧
          w₀.screen = .ok s₀ ∧ e.2.MayTrap s₀) := by
  have hone : AppDocuments [textOfAlice 0] := by
    intro d hd _
    obtain rfl := List.mem_singleton.mp hd
    exact ⟨rfl, storedMessage_textOfAlice (by decide)⟩
  have hsticker : AppDocuments [sticker] := by
    intro d hd hlegit
    obtain rfl := List.mem_singleton.mp hd
    exact absurd hlegit (by decide)
  obtain ⟨w, hw⟩ := Option.isSome_iff_exists.mp
    (by decide +kernel : (Runs.exec (RowChat.step bobIncoming) RowChat.opening twelveTextsEvents).isSome)
  refine ⟨w, hw, rows_stay_in_step bobIncoming twelveTextsEvents ?_ w hw⟩
  simp only [twelveTextsEvents, List.forall_mem_cons]
  exact ⟨twelveTexts.appDocuments, hsticker, hone, trivial, trivial, fun _ h => nomatch h⟩

end LiChat
