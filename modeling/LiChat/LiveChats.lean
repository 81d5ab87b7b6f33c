import LiChat.Conversations

/-!
# Open chats

A chat is open on one device while all devices write, delete and mark.  Its queries and its
listeners are answered at any time, with the documents that the device has by then.
-/

namespace LiChat
open ChatScreen Windows WriteQueues MessageWorld

namespace MessageWorld
variable {cc : RNCryptor.CommonCrypto} {w w' : MessageWorld}

def Received (w : MessageWorld) (path : MessagePath) : Prop :=
  Comes path.memberId path w.firestore ∨ path ∈ w.deleted

theorem Consistent.view_isSome_iff (h : Consistent w) {path : MessagePath}
    (hreceived : w.Received path) :
    (view w.firestore path.memberId path).isSome ↔ path ∉ w.deleted := by
  constructor
  · intro hsome hdeleted
    rw [(h.deleted path hdeleted).2.1] at hsome
    cases hsome
  · intro hdeleted
    exact (hreceived.resolve_right hdeleted).view_isSome
      fun hdelete => hdeleted (h.deletes _ path hdelete)

theorem received_of_isSome {path : MessagePath}
    (h : (view w.firestore path.memberId path).isSome) : w.Received path :=
  .inl (exists_of_view_isSome h)

theorem Received.step {path : MessagePath} (hreceived : w.Received path) (h : Consistent w)
    {a : MessageAction} (hs : w.step a = some w') : w'.Received path := by
  rcases hreceived with hcomes | hdeleted
  · cases a with
    | sendMessage m =>
      simp only [MessageWorld.step, Option.ite_none_left_eq_some, Option.some.injEq] at hs
      obtain ⟨-, rfl⟩ := hs
      exact .inl (hcomes.issue _ _)
    | deleteMessage currentId withId chatRoomId =>
      simp only [MessageWorld.step, Option.ite_none_right_eq_some, Option.some.injEq] at hs
      obtain ⟨-, rfl⟩ := hs
      exact .inl (hcomes.issue _ _)
    | updateMessage currentId readDate withId chatRoomId memberIds =>
      obtain rfl := Option.some.inj hs
      exact .inl hcomes
    | getDocument n =>
      obtain ⟨⟨currentId, path', readDate⟩, -, rfl⟩ := Option.map_eq_some_iff.mp hs
      refine .inl ?_
      dsimp only
      split_ifs
      · exact hcomes.issue _ _
      · exact hcomes
    | commit userId =>
      obtain ⟨firestore, hcommit, rfl⟩ := Option.map_eq_some_iff.mp hs
      by_cases hdeleted : path ∈ w.deleted
      · exact .inr hdeleted
      · exact .inl (hcomes.commit (fun j hdelete => hdeleted (h.deletes j path hdelete)) hcommit)
  · exact .inr (deleted_subset hs hdeleted)

end MessageWorld

/-- A chat that is open on a device, among all devices: the date in the query of
`listenForNewChats`, the documents that the listener has reported as added, and those that the
device had when the first query and the one in the background were answered. -/
structure LiveChat where
  world : MessageWorld
  chat : RowChat
  lastMessagesDate : Option String
  listened : List String
  atOpening : List MessageDocument
  atBackground : List MessageDocument

inductive LiveAction where
  | device (a : MessageAction)
  | initialSnapshot (succeeds : Bool)
  | backgroundSnapshot (succeeds : Bool)
  | added (documentID : String)
  | modified (documentID : String)
  | didTapLoadEarlierMessagesButton
  | didDeleteMessageAt (row : ℕ)

def loadedIn {JSQMessage : Type} : Except Trap (OpenChat JSQMessage) → List MessageDictionary
  | .ok s => s.chat.loadedMessages
  | .error _ => []

namespace LiveChat

def opening (world : MessageWorld) : LiveChat := ⟨world, RowChat.opening, none, [], [], []⟩

variable (incoming : IncomingMessage) (membersToPush : List Uid)

def documents (w : LiveChat) : List MessageDocument :=
  w.world.collection incoming.currentId incoming.chatRoomId

/-- The calls of `OutgoingMessages.updateMessage`. -/
def updateMessages (now : Date) (ids : List String) (world : MessageWorld) : Option MessageWorld :=
  ids.foldlM (fun world withId => world.step (.updateMessage incoming.currentId
    (incoming.formatter.string now) withId incoming.chatRoomId membersToPush)) world

/-- What the screen makes of the event, with the calls that it adds. -/
def onScreen (now : Date) (e : RowEvent) (w : LiveChat) : Option LiveChat := do
  let chat ← RowChat.step incoming w.chat (now, e)
  let ids := (updatedIn chat.screen).drop (updatedIn w.chat.screen).length
  let world ← updateMessages incoming membersToPush now ids w.world
  some { w with world := world, chat := chat }

def deletedAt (row : ℕ) : Except Trap (OpenChat JSQMessage) → Option MessagePath
  | .ok s => (incoming.didDeleteMessageAt row s.chat).toOption.map Prod.snd
  | .error _ => none

/-- The first query is answered once, and the listener reports a document once.  To delete a
document that is gone is no change. -/
def step (w : LiveChat) : Date × LiveAction → Option LiveChat
  | (_, .device a) => (w.world.step a).map fun world => { w with world := world }
  | (now, .initialSnapshot succeeds) =>
    if w.lastMessagesDate.isSome then none
    else do
      let docs := if succeeds then w.documents incoming else []
      let w' ← w.onScreen incoming membersToPush now
        (.initialSnapshot (if succeeds then some docs else none))
      some { w' with
        lastMessagesDate := some (LiChat.lastMessagesDate (loadedIn w'.chat.screen))
        atOpening := docs }
  | (now, .backgroundSnapshot succeeds) => do
    let docs := if succeeds then w.documents incoming else []
    let w' ← w.onScreen incoming membersToPush now (.backgroundSnapshot
      (if succeeds then some (oldMessages (loadedIn w.chat.screen) docs) else none))
    some { w' with atBackground := docs }
  | (now, .added documentID) => do
    let date ← w.lastMessagesDate
    let d ← (isGreaterThan date (w.documents incoming)).find? (·.documentID = documentID)
    if documentID ∈ w.listened then none
    else do
      let w' ← w.onScreen incoming membersToPush now (.added d)
      some { w' with listened := w.listened ++ [documentID] }
  | (now, .modified documentID) => do
    let d ← (w.documents incoming).find? (·.documentID = documentID)
    w.onScreen incoming membersToPush now (.modified d)
  | (now, .didTapLoadEarlierMessagesButton) =>
    w.onScreen incoming membersToPush now .didTapLoadEarlierMessagesButton
  | (now, .didDeleteMessageAt row) => do
    let w' ← w.onScreen incoming membersToPush now (.didDeleteMessageAt row)
    match deletedAt incoming row w.chat.screen with
    | some path => some { w' with
        world := (w'.world.step
          (.deleteMessage path.memberId path.messageId path.chatRoomId)).getD w'.world }
    | none => some w'

/-- The document of a written message, which the device has received. -/
structure StoredIn {cc : RNCryptor.CommonCrypto} (world : MessageWorld) (x : WrittenMessage cc)
    (m : MessageDictionary) : Prop where
  sent : x.sent ∈ world.sent
  room : x.vc.chatRoomId = incoming.chatRoomId
  received : world.Received (x.sent.path incoming.currentId)
  copy : ∃ d, d.data = m ∧ CopyOf x d

def Gone (world : MessageWorld) (m : MessageDictionary) : Prop :=
  ∃ messageId, m.messageId = some messageId ∧
    ⟨incoming.currentId, incoming.chatRoomId, messageId⟩ ∈ world.deleted

variable {incoming membersToPush}
variable {cc : RNCryptor.CommonCrypto} {world : MessageWorld} {x : WrittenMessage cc}
  {m : MessageDictionary}

theorem StoredIn.messageId (h : StoredIn incoming world x m) : m.messageId = some x.messageId := by
  obtain ⟨d, rfl, hcopy⟩ := h.copy
  rw [hcopy.messageId, hcopy.1]

theorem StoredIn.date (h : StoredIn incoming world x m) : m.date = some x.dateString := by
  obtain ⟨d, rfl, hcopy⟩ := h.copy
  exact hcopy.dateString

theorem StoredIn.dateString (h : StoredIn incoming world x m) : m.dateString = x.dateString := by
  rw [MessageDictionary.dateString, h.date, Option.getD_some]

theorem StoredIn.path (h : StoredIn incoming world x m) :
    x.sent.path incoming.currentId = ⟨incoming.currentId, incoming.chatRoomId, x.messageId⟩ := by
  rw [← h.room]
  rfl

theorem StoredIn.gone_iff (h : StoredIn incoming world x m) :
    Gone incoming world m ↔ x.sent.path incoming.currentId ∈ world.deleted := by
  rw [h.path]
  constructor
  · rintro ⟨messageId, hid, hdeleted⟩
    obtain rfl := Option.some.inj (h.messageId.symm.trans hid)
    exact hdeleted
  · exact fun hdeleted => ⟨_, h.messageId, hdeleted⟩

theorem StoredIn.has_iff (h : StoredIn incoming world x m) (hconsistent : Consistent world) :
    world.Has incoming.currentId incoming.chatRoomId x.sent ↔ ¬ Gone incoming world m := by
  rw [h.gone_iff, ← hconsistent.view_isSome_iff h.received]
  exact and_iff_right h.room

theorem sent_messageId (x : WrittenMessage cc) : x.sent.data.messageId = some x.messageId :=
  CopyOf.messageId (d := ⟨x.messageId, x.sent.data⟩) ⟨rfl, .inl rfl⟩

theorem sent_dateString (x : WrittenMessage cc) : x.sent.data.dateString = x.dateString := by
  rw [MessageDictionary.dateString,
    CopyOf.dateString (d := ⟨x.messageId, x.sent.data⟩) ⟨rfl, .inl rfl⟩, Option.getD_some]

theorem StoredIn.sent_eq {x' : WrittenMessage cc} (h : StoredIn incoming world x m)
    (hreadable : Readable cc world) (hx' : x'.sent ∈ world.sent)
    (hid : m.messageId = some x'.messageId) : x.sent = x'.sent :=
  List.inj_on_of_nodup_map hreadable.nodup h.sent hx'
    (Option.some.inj (h.messageId.symm.trans hid))

theorem StoredIn.dateString_eq {x' : WrittenMessage cc} (h : StoredIn incoming world x m)
    (hreadable : Readable cc world) (hx' : x'.sent ∈ world.sent)
    (hid : m.messageId = some x'.messageId) : m.dateString = x'.dateString := by
  rw [h.dateString, ← sent_dateString, h.sent_eq hreadable hx' hid, sent_dateString]

theorem StoredIn.mono {world' : MessageWorld} (h : StoredIn incoming world x m)
    (hsent : world.sent ⊆ world'.sent)
    (hreceived : ∀ path, world.Received path → world'.Received path) :
    StoredIn incoming world' x m :=
  ⟨hsent h.sent, h.room, hreceived _ h.received, h.copy⟩

theorem storedIn_documents (hreadable : Readable cc world) {d : MessageDocument}
    (hd : d ∈ world.collection incoming.currentId incoming.chatRoomId) :
    (∃ x : WrittenMessage cc, StoredIn incoming world x d.data) ∧ ¬ Gone incoming world d.data := by
  obtain ⟨x, hx, hhas, hcopy⟩ := hreadable.copyOf hd
  have hstored : StoredIn incoming world x d.data :=
    ⟨hx, hhas.1, received_of_isSome hhas.2, d, rfl, hcopy⟩
  exact ⟨⟨x, hstored⟩, (hstored.has_iff hreadable.consistent).mp hhas⟩

variable (incoming cc) in
/-- What has been loaded or added are written messages, each once, and of each it is known
whether it is yet to be paged in, shown or deleted. -/
structure Live (w : LiveChat) (s : OpenChat JSQMessage) (added : List MessageDictionary) :
    Prop where
  readable : Readable cc w.world
  kept : RowChat.Kept incoming w.chat.delivered s
  stored : ∀ m ∈ s.chat.loadedMessages ++ added, ∃ x : WrittenMessage cc,
    StoredIn incoming w.world x m
  ids : ((s.chat.loadedMessages ++ added).map MessageDictionary.messageId).Nodup
  ascending : Ascending MessageDictionary.dateString s.chat.loadedMessages
  count : ∃ count : ℕ, s.chat.loadedMessagesCount = count ∧ count ≤ s.chat.loadedMessages.length
  header : s.chat.showLoadEarlierMessagesHeader =
    decide (s.chat.loadedMessagesCount ≠ s.chat.loadedMessages.length)
  shown : s.chat.objectMessages.Sublist
    (s.chat.loadedMessages.rtake s.chat.loadedMessagesCount.toNat ++ added)
  here : ∀ m ∈ s.chat.loadedMessages ++ added,
    m ∈ s.chat.loadedMessages.rdrop s.chat.loadedMessagesCount.toNat ++ s.chat.objectMessages ↔
      ¬ Gone incoming w.world m
  listened : added.map MessageDictionary.messageId = w.listened.map some
  dates : ∀ date, w.lastMessagesDate = some date →
    (∀ m ∈ s.chat.loadedMessages, m.dateString ≤ date) ∧ ∀ m ∈ added, date < m.dateString
  unopened : w.lastMessagesDate = none → added = [] ∧ s.chat.loadedMessages = [] ∧
    w.atOpening = [] ∧ s.background = .notIssued

variable (incoming cc) in
/-- What has been loaded are the answers of the two queries, the second of which is asked if the
first has brought eleven messages. -/
structure Opened (w : LiveChat) (s : OpenChat JSQMessage) : Prop where
  stored : ∀ d ∈ w.atOpening ++ w.atBackground, ∃ x : WrittenMessage cc,
    StoredIn incoming w.world x d.data
  loaded : s.chat.loadedMessages = legitMessages (oldMessages (initialMessages w.atOpening)
    w.atBackground) ++ initialMessages w.atOpening
  waiting : s.background ≠ .completed → w.atBackground = []
  short : s.background = .notIssued → (initialMessages w.atOpening).length ≤ 10
  failed : s.background = .failed → s.chat.showLoadEarlierMessagesHeader = true
  asked : s.background = .completed → 10 < (initialMessages w.atOpening).length
  older : s.background = .completed → ∀ d ∈ w.atOpening, Gone incoming w.world d.data ∨
    d.data.messageId ∈ w.atBackground.map fun d => d.data.messageId

variable (incoming) in
/-- The devices go on, and no message of the chat is deleted. -/
structure GoesOn (world world' : MessageWorld) : Prop where
  sent : world.sent ⊆ world'.sent
  received : ∀ path, world.Received path → world'.Received path
  deleted : ∀ messageId,
    ⟨incoming.currentId, incoming.chatRoomId, messageId⟩ ∈ world'.deleted ↔
      ⟨incoming.currentId, incoming.chatRoomId, messageId⟩ ∈ world.deleted

variable (incoming) in
def Deletes (a : MessageAction) : Prop :=
  ∃ withId, a = .deleteMessage incoming.currentId withId incoming.chatRoomId

section World
variable {w : LiveChat} {s : OpenChat JSQMessage} {added : List MessageDictionary}
  {world' : MessageWorld}

theorem goesOn_step (h : Consistent world) {a : MessageAction} (ha : ¬ Deletes incoming a)
    (hs : world.step a = some world') : GoesOn incoming world world' where
  sent := sent_subset hs
  received _ hreceived := hreceived.step h hs
  deleted messageId := by
    rcases step_deleted hs with hsame | ⟨currentId, withId, chatRoomId, rfl, hnew⟩
    · rw [hsame]
    · rw [hnew, List.mem_append, List.mem_singleton, MessagePath.mk.injEq]
      refine or_iff_left ?_
      rintro ⟨rfl, rfl, -⟩
      exact ha ⟨withId, rfl⟩

theorem GoesOn.trans {world'' : MessageWorld} (h : GoesOn incoming world world')
    (h' : GoesOn incoming world' world'') : GoesOn incoming world world'' where
  sent := List.Subset.trans h.sent h'.sent
  received path hreceived := h'.received path (h.received path hreceived)
  deleted messageId := (h'.deleted messageId).trans (h.deleted messageId)

theorem goesOn_updateMessages (h : Readable cc world) {now : Date} {ids : List String}
    (hs : updateMessages incoming membersToPush now ids world = some world') :
    Readable cc world' ∧ GoesOn incoming world world' := by
  induction ids generalizing world with
  | nil =>
    obtain rfl := Option.some.inj hs
    exact ⟨h, List.Subset.refl _, fun _ hreceived => hreceived, fun _ => Iff.rfl⟩
  | cons withId ids ih =>
    rw [updateMessages, List.foldlM_cons] at hs
    obtain ⟨world₁, hstep, hrest⟩ := Option.bind_eq_some_iff.mp hs
    have hnot : ¬ Deletes incoming (.updateMessage incoming.currentId
        (incoming.formatter.string now) withId incoming.chatRoomId membersToPush) := by
      rintro ⟨_, heq⟩
      cases heq
    obtain ⟨hreadable, hgoes⟩ := ih (h.step (show Writes cc (.updateMessage _ _ _ _ _) from trivial)
      hstep) hrest
    exact ⟨hreadable, (goesOn_step h.consistent hnot hstep).trans hgoes⟩

theorem GoesOn.gone_iff (h : GoesOn incoming world world') (m : MessageDictionary) :
    Gone incoming world' m ↔ Gone incoming world m :=
  exists_congr fun messageId => and_congr_right fun _ => h.deleted messageId

theorem Live.goesOn (h : Live incoming cc w s added) (hreadable : Readable cc world')
    (hgoes : GoesOn incoming w.world world') :
    Live incoming cc { w with world := world' } s added where
  readable := hreadable
  kept := h.kept
  stored m hm := by
    obtain ⟨x, hx⟩ := h.stored m hm
    exact ⟨x, hx.mono hgoes.sent hgoes.received⟩
  ids := h.ids
  ascending := h.ascending
  count := h.count
  header := h.header
  shown := h.shown
  here m hm := (h.here m hm).trans (not_congr (hgoes.gone_iff m).symm)
  listened := h.listened
  dates := h.dates
  unopened := h.unopened

theorem Opened.of_loaded (h : Opened incoming cc w s) {w' : LiveChat} {s' : OpenChat JSQMessage}
    (hopening : w'.atOpening = w.atOpening) (hbackground : w'.atBackground = w.atBackground)
    (hloaded : s'.chat.loadedMessages = s.chat.loadedMessages)
    (hback : s'.background = s.background)
    (hheader : s'.background = .failed →
      s'.chat.showLoadEarlierMessagesHeader = s.chat.showLoadEarlierMessagesHeader)
    (hsent : w.world.sent ⊆ w'.world.sent)
    (hreceived : ∀ path, w.world.Received path → w'.world.Received path)
    (hgone : ∀ m, Gone incoming w.world m → Gone incoming w'.world m) :
    Opened incoming cc w' s' where
  stored d hd := by
    rw [hopening, hbackground] at hd
    obtain ⟨x, hx⟩ := h.stored d hd
    exact ⟨x, hx.mono hsent hreceived⟩
  loaded := by
    rw [hopening, hbackground, hloaded]
    exact h.loaded
  waiting := by
    rw [hbackground, hback]
    exact h.waiting
  short := by
    rw [hopening, hback]
    exact h.short
  failed hfailed := by
    rw [hheader hfailed]
    exact h.failed (hback ▸ hfailed)
  asked := by
    rw [hopening, hback]
    exact h.asked
  older := by
    rw [hopening, hbackground, hback]
    exact fun hcompleted d hd => (h.older hcompleted d hd).imp_left (hgone d.data)

theorem Opened.goesOn (h : Opened incoming cc w s) (hgoes : GoesOn incoming w.world world') :
    Opened incoming cc { w with world := world' } s :=
  h.of_loaded rfl rfl rfl rfl (fun _ => rfl) hgoes.sent hgoes.received
    fun m hm => (hgoes.gone_iff m).mpr hm

end World

end LiveChat

end LiChat
