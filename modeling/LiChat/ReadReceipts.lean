import LiChat.General.Marking
import LiChat.PagingHistory

/-!
# Read receipts

When an incoming message is inserted at the end of the chat, `OutgoingMessages.updateMessage`
looks for the copy of every member in `membersToPush` and, if it is there, marks it as read.
-/

namespace LiChat
open ChatScreen Marking

structure ReadingScreen (JSQMessage : Type) where
  screen : ChatScreen JSQMessage
  chatRoomId : String
  membersToPush : List Uid

/-- The open chat, and the message documents with the requests that are under way. -/
structure ReadingChat (JSQMessage : Type) where
  chat : Except Trap (OpenChat JSQMessage)
  firestore : Marking.State MessagePath MessageDictionary String

/-- An event of the open chat, the answer to a getDocument, or an updateData that is done. -/
inductive ReadAction where
  | event (e : ChatEvent) (readDate : String)
  | getDocument (n : ℕ)
  | updateData (n : ℕ)

namespace OutgoingMessages

/-- The values of `updateMessage`. -/
def markRead (readDate : String) (m : MessageDictionary) : MessageDictionary :=
  { m with status := some kREAD, readDate := some readDate }

/-- `updateMessage`: the documents that it asks for. -/
def updateMessage (readDate withId chatRoomId : String) (memberIds : List Uid) :
    List (MessagePath × String) :=
  memberIds.map fun userId => (⟨userId, chatRoomId, withId⟩, readDate)

end OutgoingMessages

/-- The ids that the screen has called `updateMessage` with. -/
def updatedIn {JSQMessage : Type} : Except Trap (OpenChat JSQMessage) → List String
  | .ok s => s.chat.updatedMessages
  | .error _ => []

namespace ReadingScreen
variable {JSQMessage : Type} (rs : ReadingScreen JSQMessage)

/-- The requests of the calls of `updateMessage` that an event adds. -/
def receipts (readDate : String) (before after : List String) : List (MessagePath × String) :=
  (after.drop before.length).flatMap fun messageId =>
    OutgoingMessages.updateMessage readDate messageId rs.chatRoomId rs.membersToPush

/-- The callback of the initial query. -/
def openChat (docs : List MessageDocument) (readDate : String) (messages : MessageStore) :
    ReadingChat JSQMessage :=
  let chat := rs.screen.openChat docs
  ⟨chat, ask (rs.receipts readDate [] (updatedIn chat)) (init messages)⟩

def step (w : ReadingChat JSQMessage) : ReadAction → Option (ReadingChat JSQMessage)
  | .event e readDate => do
    let chat ← rs.screen.step w.chat e
    some ⟨chat, ask (rs.receipts readDate (updatedIn w.chat) (updatedIn chat)) w.firestore⟩
  | .getDocument n => (query n w.firestore).map fun firestore => { w with firestore := firestore }
  | .updateData n =>
    (write OutgoingMessages.markRead n w.firestore).map fun firestore =>
      { w with firestore := firestore }

end ReadingScreen

def IncomingMessage.readingScreen (incoming : IncomingMessage) (membersToPush : List Uid) :
    ReadingScreen JSQMessage :=
  ⟨incoming.chatScreen, incoming.chatRoomId, membersToPush⟩

def chatEvents (actions : List ReadAction) : List ChatEvent :=
  actions.filterMap fun
    | .event e _ => some e
    | _ => none

/-- The events are those of a chat whose documents are the app's. -/
def ReadsApp {JSQMessage : Type} (w : ReadingChat JSQMessage) : ReadAction → Prop
  | .event e _ => OfApp w.chat e
  | _ => True

def IsRead (m : MessageDictionary) : Prop := m.status = some kREAD

def incomingIds (currentId : Uid) (messages : List MessageDictionary) : List String :=
  messages.filterMap fun m => if m.senderId ≠ some currentId then m.messageId else none

def firstPage (docs : List MessageDocument) : List MessageDictionary :=
  (initialMessages docs).rtake 10

theorem incomingIds_append (currentId : Uid) (l l' : List MessageDictionary) :
    incomingIds currentId (l ++ l') = incomingIds currentId l ++ incomingIds currentId l' :=
  List.filterMap_append

namespace ChatScreen
variable {JSQMessage : Type} {vc : ChatScreen JSQMessage}

theorem updateIncoming_receipts {m : MessageDictionary} {s s' : ChatState JSQMessage}
    (h : vc.updateIncoming m s = .ok s') :
    s'.updatedMessages = s.updatedMessages ++ incomingIds vc.currentId [m] := by
  obtain ⟨senderId, hsender, h⟩ := bind_eq_ok h
  have hsender := unwrap_eq_ok hsender
  split_ifs at h with hother
  · obtain ⟨messageId, hid, h⟩ := bind_eq_ok h
    rw [← Except.ok.inj h]
    simp [incomingIds, hsender, hother, unwrap_eq_ok hid]
  · rw [← Except.ok.inj h]
    simp [incomingIds, hsender, not_not.mp hother]

theorem insertInitialLoadMessages_receipts {m : MessageDictionary} {s s' : ChatState JSQMessage}
    (h : vc.insertInitialLoadMessages m s = .ok s') :
    s'.updatedMessages = s.updatedMessages ++ incomingIds vc.currentId [m] := by
  obtain ⟨s₁, hs₁, h⟩ := bind_eq_ok h
  rw [← updateIncoming_receipts hs₁]
  cases hmessage : vc.createMessage m with
  | none =>
    rw [hmessage] at h
    rw [← Except.ok.inj h]
  | some message =>
    rw [hmessage] at h
    rw [← Except.ok.inj h]

theorem getPictureMessage_receipts {s s' : ChatState JSQMessage} (h : s.getPictureMessage = .ok s') :
    s'.updatedMessages = s.updatedMessages ∧ s'.objectMessages = s.objectMessages := by
  obtain ⟨links, -, h⟩ := bind_eq_ok h
  rw [← Except.ok.inj h]
  exact ⟨rfl, rfl⟩

/-- As long as all messages are inserted at the end, every incoming one on the screen has its
receipt. -/
theorem insertMessages_receipts {s s' : ChatState JSQMessage} (h : vc.insertMessages s = .ok s')
    (hshow : ∀ m ∈ s.loadedMessages, Showable vc m)
    (hs : s.updatedMessages = incomingIds vc.currentId s.objectMessages) :
    s'.updatedMessages = incomingIds vc.currentId s'.objectMessages := by
  obtain ⟨range, -, h⟩ := bind_eq_ok h
  obtain ⟨s₁, hs₁, h⟩ := bind_eq_ok h
  rw [← Except.ok.inj h]
  refine (showMessages_keeps (P := fun t => (∀ m ∈ t.loadedMessages, Showable vc m) ∧
      t.updatedMessages = incomingIds vc.currentId t.objectMessages) (fun _ _ ht => ht)
    (fun m t t' hm ht' ht => ?_) hs₁ ⟨hshow, hs⟩).2
  obtain ⟨t₁, ht₁, hobject⟩ := insertInitialLoadMessages_ok (ht.1 m hm) t
  obtain rfl : t' = t₁ := Except.ok.inj (ht'.symm.trans ht₁)
  have hsame := vc.insertInitialLoadMessages_outcome m t
  rw [ht'] at hsame
  refine ⟨hsame.loaded ▸ ht.1, ?_⟩
  rw [insertInitialLoadMessages_receipts ht', hobject, incomingIds_append, ht.2]

theorem openChat_receipts {docs : List MessageDocument} {s : OpenChat JSQMessage}
    (hdocs : ∀ d ∈ docs, d.data.legit → Showable vc d.data) (h : vc.openChat docs = .ok s) :
    s.chat.updatedMessages = incomingIds vc.currentId (firstPage docs) := by
  obtain ⟨s', hs', -, hloaded, hshow, -, hobject, -⟩ := openChat_ok hdocs
  obtain rfl : s = s' := Except.ok.inj (h.symm.trans hs')
  rw [firstPage, ← hloaded, ← hobject]
  rw [hloaded] at hshow
  obtain ⟨loadedMessages, hloadedMessages, hloading⟩ := bind_eq_ok h
  obtain ⟨s₁, hs₁, hrest⟩ := bind_eq_ok hloading
  obtain ⟨s₂, hs₂, hrest⟩ := bind_eq_ok hrest
  have hinitial : initialMessages docs = loadedMessages :=
    Option.some.inj ((loadMessages_eq docs).symm.trans (unwrap_eq_ok hloadedMessages))
  rw [hinitial] at hshow
  have hinserted := insertMessages_receipts hs₁ hshow rfl
  obtain ⟨hupdated, hobject₂⟩ := getPictureMessage_receipts hs₂
  rw [← Except.ok.inj hrest, hupdated, hobject₂]
  exact hinserted

theorem loadMoreMessages_receipts {maxNumber minNumber : ℤ} {s s' : ChatState JSQMessage}
    (h : vc.loadMoreMessages maxNumber minNumber s = .ok s') :
    s'.updatedMessages = s.updatedMessages := by
  obtain ⟨range, -, h⟩ := bind_eq_ok h
  obtain ⟨s₁, hs₁, h⟩ := bind_eq_ok h
  have hkept : s₁.updatedMessages = s.updatedMessages := by
    refine showMessages_keeps (P := fun t => t.updatedMessages = s.updatedMessages)
      (fun _ _ ht => ht) (fun m t t' _ ht' ht => ?_) hs₁ rfl
    obtain ⟨message, -, ht'⟩ := bind_eq_ok ht'
    rw [← Except.ok.inj ht']
    exact ht
  rw [← Except.ok.inj h]
  exact hkept

theorem step_receipts {s s' : OpenChat JSQMessage} {e : ChatEvent}
    (h : vc.step (.ok s) e = some (.ok s')) :
    s'.chat.updatedMessages = s.chat.updatedMessages ++ incomingIds vc.currentId e.addedMessage := by
  cases e with
  | didTapLoadEarlierMessagesButton =>
    simp only [step, Option.ite_none_right_eq_some, Option.some.injEq] at h
    obtain ⟨chat, hchat, rfl⟩ := map_eq_ok h.2
    exact (loadMoreMessages_receipts hchat).trans (List.append_nil _).symm
  | backgroundSnapshot snapshot =>
    simp only [step, Option.ite_none_right_eq_some] at h
    obtain ⟨-, h⟩ := h
    cases snapshot with
    | none =>
      obtain rfl := Except.ok.inj (Option.some.inj h)
      exact (List.append_nil _).symm
    | some docs =>
      obtain ⟨chat, hchat, rfl⟩ := map_eq_ok (Option.some.inj h)
      obtain ⟨older, -, hchat⟩ := bind_eq_ok hchat
      obtain ⟨s₁, hs₁, hchat⟩ := bind_eq_ok hchat
      rw [← Except.ok.inj hchat]
      exact (getPictureMessage_receipts hs₁).1.trans (List.append_nil _).symm
  | added item =>
    obtain ⟨chat, hchat, rfl⟩ := map_eq_ok (Option.some.inj h)
    unfold addedMessage at hchat
    rw [ChatEvent.addedMessage]
    split_ifs at hchat with hlegit
    · obtain ⟨s₁, hs₁, hchat⟩ := bind_eq_ok hchat
      have hlink : s₁.updatedMessages = s.chat.updatedMessages := by
        unfold addNewPictureMessageLink at hs₁
        split_ifs at hs₁
        · obtain ⟨link, -, hs₁⟩ := bind_eq_ok hs₁
          rw [← Except.ok.inj hs₁]
        · rw [← Except.ok.inj hs₁]
      rw [if_pos hlegit, insertInitialLoadMessages_receipts hchat, hlink]
    · rw [if_neg hlegit, ← Except.ok.inj hchat]
      exact (List.append_nil _).symm

end ChatScreen

namespace ReadingScreen
variable {JSQMessage : Type} {rs : ReadingScreen JSQMessage}

/-- The members' copies of the messages with the given ids. -/
def copies (rs : ReadingScreen JSQMessage) (ids : List String) : Set MessagePath :=
  {path | path.memberId ∈ rs.membersToPush ∧ path.chatRoomId = rs.chatRoomId ∧
    path.messageId ∈ ids}

theorem mem_receipts {readDate : String} {before after : List String} {path : MessagePath} :
    (∃ r, (path, r) ∈ rs.receipts readDate before after) ↔
      path ∈ rs.copies (after.drop before.length) := by
  simp only [receipts, OutgoingMessages.updateMessage, List.mem_flatMap, List.mem_map, copies,
    Set.mem_ofPred_eq, Prod.mk.injEq]
  constructor
  · rintro ⟨r, messageId, hid, userId, huser, rfl, -⟩
    exact ⟨huser, rfl, hid⟩
  · rintro ⟨huser, hroom, hid⟩
    exact ⟨readDate, path.messageId, hid, path.memberId, huser, by rw [← hroom], rfl⟩

theorem marks_ask {messages : MessageStore} {ids ids' : List String}
    {s : Marking.State MessagePath MessageDictionary String}
    (h : Marks IsRead messages (rs.copies ids) s) (readDate : String) :
    Marks IsRead messages (rs.copies (ids ++ ids'))
      (ask (rs.receipts readDate ids (ids ++ ids')) s) := by
  have hasked : {path | path ∈ rs.copies ids ∨
      ∃ r, (path, r) ∈ rs.receipts readDate ids (ids ++ ids')} = rs.copies (ids ++ ids') := by
    ext path
    rw [Set.mem_ofPred_eq, mem_receipts, List.drop_left]
    simp only [copies, Set.mem_ofPred_eq, List.mem_append]
    tauto
  rw [← hasked]
  exact h.ask _

/-- The chat after the given actions, and what has been marked. -/
structure Receipts (rs : ReadingScreen JSQMessage) (docs : List MessageDocument)
    (messages : MessageStore) (w : ReadingChat JSQMessage) (actions : List ReadAction)
    (s : OpenChat JSQMessage) : Prop where
  chat : w.chat = .ok s
  history : History rs.screen s (chatEvents actions)
  updated : s.chat.updatedMessages =
    incomingIds rs.screen.currentId (firstPage docs ++ addedMessages (chatEvents actions))
  marks : Marks IsRead messages (rs.copies s.chat.updatedMessages) w.firestore

theorem openChat_receipts (hvc : ∀ m, StoredMessage m → Showable rs.screen m)
    (collection : MessageCollection) (readDate : String) (messages : MessageStore) :
    ∃ s, Receipts rs collection.documents messages
      (rs.openChat collection.documents readDate messages) [] s := by
  obtain ⟨s, hopen, hs⟩ := openChat_history hvc collection
  have hupdated := ChatScreen.openChat_receipts
    (fun d hd hlegit => hvc d.data (collection.stored d hd hlegit)) hopen
  refine ⟨s, hopen, hs, ?_, ?_⟩
  · rw [hupdated]
    exact congrArg _ (List.append_nil _).symm
  · have hstart : Marks IsRead messages (rs.copies [])
        (init messages : Marking.State MessagePath MessageDictionary String) := by
      have hempty : rs.copies [] = ∅ := by simp [copies]
      rw [hempty]
      exact marks_init IsRead messages
    simp only [openChat, hopen, updatedIn]
    exact marks_ask hstart readDate

theorem step_receipts (hvc : ∀ m, StoredMessage m → Showable rs.screen m)
    {docs : List MessageDocument} {messages : MessageStore} {w w' : ReadingChat JSQMessage}
    {actions : List ReadAction} {a : ReadAction} (h : ∃ s, Receipts rs docs messages w actions s)
    (ha : ReadsApp w a) (hstep : rs.step w a = some w') :
    ∃ s, Receipts rs docs messages w' (actions ++ [a]) s := by
  obtain ⟨s, hchat, hs, hupdated, hmarks⟩ := h
  have hquiet : ∀ n, chatEvents (actions ++ [.getDocument n]) = chatEvents actions ∧
      chatEvents (actions ++ [.updateData n]) = chatEvents actions := by
    intro n
    simp [chatEvents]
  cases a with
  | event e readDate =>
    obtain ⟨chat, hevent, hstep⟩ := Option.bind_eq_some_iff.mp hstep
    obtain rfl := Option.some.inj hstep
    rw [hchat] at hevent
    have he : OfApp (.ok s) e := by
      have ha' : OfApp w.chat e := ha
      rwa [hchat] at ha'
    obtain ⟨s', rfl, hs'⟩ := step_history hvc ⟨s, rfl, hs⟩ he hevent
    have hnew := ChatScreen.step_receipts hevent
    have hevents : chatEvents (actions ++ [.event e readDate]) = chatEvents actions ++ [e] := by
      simp [chatEvents]
    refine ⟨s', rfl, hevents ▸ hs', ?_, ?_⟩
    · rw [hevents, hnew, hupdated, ← incomingIds_append, List.append_assoc,
        History.addedMessages_concat]
    · simp only [hchat, updatedIn, hnew]
      exact marks_ask hmarks readDate
  | getDocument n =>
    obtain ⟨firestore, hquery, rfl⟩ := Option.map_eq_some_iff.mp hstep
    rw [← (hquiet n).1] at hs hupdated
    exact ⟨s, hchat, hs, hupdated, hmarks.query hquery⟩
  | updateData n =>
    obtain ⟨firestore, hwrite, rfl⟩ := Option.map_eq_some_iff.mp hstep
    rw [← (hquiet n).2] at hs hupdated
    have hread : ∀ r d, IsRead (OutgoingMessages.markRead r d) := fun _ _ => rfl
    exact ⟨s, hchat, hs, hupdated, hmarks.write hread hwrite⟩

end ReadingScreen

/-- However the initial page, new messages, paging and the callbacks of the receipts follow
one another: once all callbacks have run, the sender's copy of an incoming message that is on
the screen is read exactly when it had been read before, or its sender is in `membersToPush`
and the message has come with the first page or through the listener, not by paging. -/
theorem senders_copy_read_iff (incoming : IncomingMessage) (membersToPush : List Uid)
    (collection : MessageCollection) (readDate : String) (messages : MessageStore)
    (actions : List ReadAction) (w : ReadingChat JSQMessage)
    (hactions : Runs.Guarded (incoming.readingScreen membersToPush).step ReadsApp
      ((incoming.readingScreen membersToPush).openChat collection.documents readDate messages)
      actions)
    (hrun : Runs.exec (incoming.readingScreen membersToPush).step
      ((incoming.readingScreen membersToPush).openChat collection.documents readDate messages)
      actions = some w)
    (hqueries : w.firestore.queries = []) (hwrites : w.firestore.writes = []) :
    ∃ s, w.chat = .ok s ∧ ∀ m ∈ s.chat.objectMessages, ∀ senderId messageId,
      m.senderId = some senderId → senderId ≠ incoming.currentId → m.messageId = some messageId →
      (messages ⟨senderId, incoming.chatRoomId, messageId⟩).isSome →
      (IsMarked IsRead w.firestore.store ⟨senderId, incoming.chatRoomId, messageId⟩ ↔
        IsMarked IsRead messages ⟨senderId, incoming.chatRoomId, messageId⟩ ∨
          senderId ∈ membersToPush ∧
            messageId ∈ incomingIds incoming.currentId
              (firstPage collection.documents ++ addedMessages (chatEvents actions))) := by
  have hvc : ∀ m, StoredMessage m → Showable incoming.chatScreen m :=
    fun m hm => hm.showable incoming
  obtain ⟨s, hs⟩ := Runs.exec_history
    (I := fun w past => ∃ s, ReadingScreen.Receipts (incoming.readingScreen membersToPush)
      collection.documents messages w past s)
    (fun w past a w' => ReadingScreen.step_receipts hvc)
    (ReadingScreen.openChat_receipts hvc collection readDate messages) hactions hrun
  refine ⟨s, hs.chat, fun m _ senderId messageId _ _ _ hexists => ?_⟩
  have hupdated := hs.updated
  rw [List.nil_append] at hupdated
  rw [hs.marks.finished hqueries hwrites hexists, hupdated]
  refine or_congr_right ?_
  show senderId ∈ membersToPush ∧ incoming.chatRoomId = incoming.chatRoomId ∧ _ ↔ _
  simp only [true_and]
  rfl

/-- The first text of Alice is on Bob's screen, no callback is left, and her copy is as
given. -/
def FirstTextShown (w : ReadingChat JSQMessage) (copy : MessageDictionary) : Prop :=
  (∃ s, w.chat = .ok s ∧ (textOfAlice 0).data ∈ s.chat.objectMessages) ∧
    w.firestore.queries = [] ∧ w.firestore.writes = [] ∧
    w.firestore.store ⟨"alice", "alicebob", "0"⟩ = some copy

instance (w : ReadingChat JSQMessage) (copy : MessageDictionary) :
    Decidable (FirstTextShown w copy) :=
  match h : w.chat with
  | .ok s => decidable_of_iff ((textOfAlice 0).data ∈ s.chat.objectMessages ∧
      w.firestore.queries = [] ∧ w.firestore.writes = [] ∧
      w.firestore.store ⟨"alice", "alicebob", "0"⟩ = some copy) (by simp [FirstTextShown, h])
  | .error _ => isFalse (by simp [FirstTextShown, h])

def storedTexts (seconds : List ℕ) : MessageStore := fun path =>
  if path.memberId ∈ ["alice", "bob"] ∧ path.chatRoomId = "alicebob" then
    ((seconds.map textOfAlice).find? fun d => d.documentID = path.messageId).map
      MessageDocument.data
  else none

def oneText : MessageCollection := textsOfAlice [0] (by decide) (by decide)

theorem senders_copy_read_one_text :
    ∃ w, Runs.exec (bobIncoming.readingScreen ["alice", "bob"]).step
        ((bobIncoming.readingScreen ["alice", "bob"]).openChat oneText.documents "20190204130000"
          (storedTexts [0])) [.getDocument 0, .getDocument 0, .updateData 0, .updateData 0] =
          some w ∧
      IsMarked IsRead w.firestore.store ⟨"alice", "alicebob", "0"⟩ := by
  obtain ⟨w, hrun, ⟨s, hs, hshown⟩, hqueries, hwrites, -⟩ :
      ∃ w, Runs.exec (bobIncoming.readingScreen ["alice", "bob"]).step
          ((bobIncoming.readingScreen ["alice", "bob"]).openChat oneText.documents "20190204130000"
            (storedTexts [0])) [.getDocument 0, .getDocument 0, .updateData 0, .updateData 0] =
            some w ∧
        FirstTextShown w (OutgoingMessages.markRead "20190204130000" (textOfAlice 0).data) :=
    Runs.exists_of_any (by decide +kernel)
  obtain ⟨s', hs', hread⟩ := senders_copy_read_iff bobIncoming ["alice", "bob"] oneText
    "20190204130000" (storedTexts [0])
    [.getDocument 0, .getDocument 0, .updateData 0, .updateData 0] w
    (Runs.guarded_cons.mpr fun _ _ => ⟨trivial, Runs.guarded_cons.mpr fun _ _ => ⟨trivial,
      Runs.guarded_cons.mpr fun _ _ => ⟨trivial, Runs.guarded_cons.mpr fun _ _ => ⟨trivial,
        Runs.guarded_nil⟩⟩⟩⟩) hrun hqueries hwrites
  obtain rfl : s = s' := Except.ok.inj (hs.symm.trans hs')
  refine ⟨w, hrun, (hread _ hshown "alice" "0" rfl (by decide) rfl rfl).mpr (.inr ⟨by decide, ?_⟩)⟩
  decide +kernel

/-- Alice has muted the room, or her text is paged in: her copy stays as it was. -/
theorem senders_copy_read_fails_muted_or_paged :
    (∃ w, Runs.exec (bobIncoming.readingScreen ["bob"]).step
        ((bobIncoming.readingScreen ["bob"]).openChat oneText.documents "20190204130000"
          (storedTexts [0])) [.getDocument 0, .updateData 0] = some w ∧
      FirstTextShown w (textOfAlice 0).data) ∧
    (∃ w, Runs.exec (bobIncoming.readingScreen ["alice"]).step
        ((bobIncoming.readingScreen ["alice"]).openChat twelveTexts.documents "20190204130000"
          (storedTexts (List.range 12)))
        ([.event (.backgroundSnapshot (some [textOfAlice 0])) "20190204130001",
            .event .didTapLoadEarlierMessagesButton "20190204130002"] ++
          List.replicate 10 (.getDocument 0) ++ List.replicate 10 (.updateData 0)) = some w ∧
      FirstTextShown w (textOfAlice 0).data) ∧
    (textOfAlice 0).data.senderId = some "alice" ∧ bobIncoming.currentId ≠ "alice" ∧
    ¬ IsRead (textOfAlice 0).data := by
  refine ⟨Runs.exists_of_any (by decide +kernel), Runs.exists_of_any (by decide +kernel), rfl,
    by decide, ?_⟩
  unfold IsRead
  decide

end LiChat
