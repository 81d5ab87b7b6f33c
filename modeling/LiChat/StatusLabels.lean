import LiChat.Conversations
import LiChat.TimeElapsed

/-!
# The status below a message

The last row of a chat says whether its message has been delivered or when it has been read.
The time is written by the device of the reader and only cut down by the one that shows it.
-/

namespace LiChat
open Calendar ChatScreen WriteQueues

section
variable (f : DateFormatter) (rule : WeekRule)

/-- It traps on a date that does not exist. -/
def readTimeFrom (dateString : String) : Option String :=
  (f.date dateString).map (f.stringIn rule "HH:mm")

/-- The text is made for every row and shown below the last one. -/
def attributedTextForCellBottomLabelAt (s : ChatState JSQMessage) (row : ℕ) : Option String := do
  let message ← s.objectMessages[row]?
  let messageStatus ← message.status
  let status ←
    if messageStatus = kDELIVERED then some kDELIVERED
    else if messageStatus = kREAD then do
      let readDate ← message.readDate
      let readTime ← readTimeFrom f rule readDate
      some ("Read" ++ " " ++ readTime)
    else some "🐶"
  some (if row + 1 = s.messages.length then status else "")

end

theorem readTimeFrom_string (f : DateFormatter) (rule : WeekRule) {g : DateFormatter} {t : Date}
    (h : g.InYears t) : readTimeFrom f rule (g.string t) = some (g.stringIn rule "HH:mm" t) := by
  rw [readTimeFrom, DateFormatter.date_string f h, Option.map_some, DateFormatter.stringIn,
    DateFormatter.stringIn]
  have hclock : f.wallClock ((g.wallClock t - f.secondsFromGMT : ℤ) : ℚ) = g.wallClock t := by
    rw [DateFormatter.wallClock, Int.floor_intCast, sub_add_cancel]
  rw [hclock]

namespace MessageWorld

/-- Some device has called `updateMessage` for the message at that date. -/
def Asked (actions : List MessageAction) (withId readDate : String) : Prop :=
  ∃ currentId chatRoomId memberIds,
    .updateMessage currentId readDate withId chatRoomId memberIds ∈ actions

def HasStatus (actions : List MessageAction) (path : MessagePath) (d : MessageDictionary) : Prop :=
  d.status = some kDELIVERED ∨
    ∃ readDate, Asked actions path.messageId readDate ∧ d.status = some kREAD ∧
      d.readDate = some readDate

/-- Every status is one that an action of the run has given. -/
structure Statuses (actions : List MessageAction) (w : MessageWorld) : Prop where
  documents : Holds (HasStatus actions) w.firestore
  requests : ∀ q ∈ w.getDocuments, Asked actions q.2.1.messageId q.2.2

variable {cc : RNCryptor.CommonCrypto} {actions : List MessageAction} {w w' : MessageWorld}

theorem status_encoded {vc : ChatViewController} {user : FUser} {date : Date} {link : String}
    {payload : Payload} {m : MessageDictionary} (h : payload.encoded vc user date link = some m) :
    m.status = some kDELIVERED := by
  cases payload with
  | text s =>
    obtain rfl := Option.some.inj h
    rfl
  | picture p =>
    obtain rfl := Option.some.inj h
    rfl
  | video v =>
    obtain ⟨_, -, rfl⟩ := Option.map_eq_some_iff.mp h
    rfl
  | audio a =>
    obtain rfl := Option.some.inj h
    rfl
  | location =>
    obtain ⟨_, -, rfl⟩ := Option.map_eq_some_iff.mp h
    rfl

theorem Statuses.step (h : Statuses actions w) {a : MessageAction} (ha : a ∈ actions)
    (hwrites : Writes cc a) (hs : w.step a = some w') : Statuses actions w' := by
  cases a with
  | sendMessage m =>
    simp only [MessageWorld.step, Option.ite_none_left_eq_some, Option.some.injEq] at hs
    obtain ⟨-, rfl⟩ := hs
    obtain ⟨x, rfl⟩ := hwrites
    refine ⟨h.documents.issue (fun write hwrite => ?_) _, h.requests⟩
    obtain ⟨memberId, -, rfl⟩ := List.mem_map.mp hwrite
    have hstatus := status_encoded x.encoded
    -- a message is sent as delivered
    exact .inl hstatus
  | deleteMessage currentId withId chatRoomId =>
    simp only [MessageWorld.step, Option.ite_none_right_eq_some, Option.some.injEq] at hs
    obtain ⟨-, rfl⟩ := hs
    refine ⟨h.documents.issue (fun write hwrite => ?_) _, h.requests⟩
    obtain rfl := List.mem_singleton.mp hwrite
    trivial
  | updateMessage currentId readDate withId chatRoomId memberIds =>
    obtain rfl := Option.some.inj hs
    refine ⟨h.documents, fun q hq => ?_⟩
    rcases List.mem_append.mp hq with hold | hnew
    · exact h.requests q hold
    · obtain ⟨_, hrequest, rfl⟩ := List.mem_map.mp hnew
      obtain ⟨userId, -, rfl⟩ := List.mem_map.mp hrequest
      exact ⟨currentId, chatRoomId, memberIds, ha⟩
  | getDocument n =>
    obtain ⟨⟨currentId, path, readDate⟩, hq, rfl⟩ := Option.map_eq_some_iff.mp hs
    refine ⟨?_, fun q hq' => h.requests q (List.mem_of_mem_eraseIdx hq')⟩
    dsimp only
    split_ifs
    · refine h.documents.issue (fun write hwrite => ?_) _
      obtain rfl := List.mem_singleton.mp hwrite
      -- the mark has the date of the call that has asked for it
      exact fun d _ => .inr ⟨readDate, h.requests _ (List.mem_of_getElem? hq), rfl, rfl⟩
    · exact h.documents
  | commit userId =>
    obtain ⟨firestore, hcommit, rfl⟩ := Option.map_eq_some_iff.mp hs
    exact ⟨h.documents.commit hcommit, h.requests⟩

theorem statuses_of_run (hactions : ∀ a ∈ actions, Writes cc a)
    (hrun : Runs.exec MessageWorld.step init actions = some w) : Statuses actions w := by
  have hguard : Runs.Guarded MessageWorld.step (fun _ a => a ∈ actions ∧ Writes cc a) init actions :=
    fun pre a _ _ hpre _ _ => by
      have hmem := hpre.subset (List.mem_append_right pre List.mem_cons_self)
      exact ⟨hmem, hactions a hmem⟩
  exact (Runs.always_of_guarded (I := Statuses actions)
    (fun _ _ _ hI ha hs => hI.step ha.1 ha.2 hs)
    ⟨⟨fun _ _ h => (by cases h), fun _ _ h => absurd h List.not_mem_nil⟩,
      fun _ h => absurd h List.not_mem_nil⟩ hguard).last hrun

/-- The document that a row shows is the device's copy, marked by an action of the run if it is
marked. -/
theorem DocumentOf.view_eq {x : WrittenMessage cc} {m : MessageDictionary} {currentId : Uid}
    {chatRoomId : String} (hx : DocumentOf w currentId chatRoomId x m) (h : Readable cc w)
    (hw : Statuses actions w) (hm : m ∈ firstPage (w.collection currentId chatRoomId)) :
    view w.firestore currentId (x.sent.path currentId) = some m ∧
      (m = x.sent.data ∨ ∃ readDate, Asked actions x.messageId readDate ∧
        m = OutgoingMessages.markRead readDate x.sent.data) := by
  obtain ⟨d, hd, rfl⟩ := exists_of_mem_firstPage hm
  have hid : x.messageId = d.documentID := by
    obtain ⟨y, -, -, hcopy⟩ := h.copyOf hd
    exact Option.some.inj (hx.messageId.trans hcopy.messageId)
  obtain ⟨m', -, hview⟩ := List.mem_filterMap.mp hd
  obtain ⟨data, hdata, rfl⟩ := Option.map_eq_some_iff.mp hview
  obtain ⟨⟨-, hroom, -⟩, d', hd', -, hcopy⟩ := hx
  have hpath : x.sent.path currentId = ⟨currentId, chatRoomId, m'.messageId⟩ := by
    rw [SendCall.path, hroom]
    exact congrArg (MessagePath.mk currentId chatRoomId) hid
  refine ⟨by rw [hpath, hdata], ?_⟩
  rw [hd'] at hcopy
  rcases hcopy with hunmarked | ⟨readDate, hmarked⟩
  · exact .inl hunmarked
  refine .inr ⟨readDate, ?_, hmarked⟩
  have hstatus : HasStatus actions ⟨currentId, chatRoomId, m'.messageId⟩ data :=
    hw.documents.view hdata
  rcases hstatus with hdelivered | ⟨readDate', hasked, -, hdate⟩
  · rw [show data.status = some kREAD from congrArg MessageDictionary.status hmarked] at hdelivered
    exact absurd hdelivered (by decide)
  · rw [show data.readDate = some readDate from congrArg MessageDictionary.readDate hmarked] at hdate
    rw [Option.some.inj hdate, hid]
    exact hasked

end MessageWorld

open MessageWorld in
/-- For every run of the devices and every moment of it, with the clocks of the readers in any
time zones: the labels of a chat that opens are empty but for the last row, which says that its
message has been delivered while the device's copy is unmarked, and otherwise when it has been
read, by the clock of the device that has marked it. -/
theorem opened_chat_status (cc : RNCryptor.CommonCrypto) (actions : List MessageAction)
    (w : MessageWorld) (hactions : ∀ a ∈ actions, Writes cc a)
    (hclocks : ∀ withId readDate, Asked actions withId readDate →
      ∃ (g : DateFormatter) (t : Date), g.InYears t ∧ readDate = g.string t)
    (hrun : Runs.exec MessageWorld.step init actions = some w) (random : RNCryptor.RandomData)
    (currentId : Uid) (chatRoomId : String) (f : DateFormatter) (rule : WeekRule) (now : Date) :
    let incoming := IncomingMessage.withRNCryptor cc random currentId chatRoomId f now
    ∃ s shown, incoming.chatScreen.openChat (w.collection currentId chatRoomId) = .ok s ∧
      List.Forall₂ (fun (x : WrittenMessage cc) message => x.readBy incoming = some message) shown
        s.chat.messages ∧
      ∀ row x, shown[row]? = some x →
        (row + 1 ≠ shown.length →
          attributedTextForCellBottomLabelAt f rule s.chat row = some "") ∧
        (row + 1 = shown.length →
          (view w.firestore currentId (x.sent.path currentId) = some x.sent.data ∧
            attributedTextForCellBottomLabelAt f rule s.chat row = some kDELIVERED) ∨
          ∃ (g : DateFormatter) (t : Date), Asked actions x.messageId (g.string t) ∧
            view w.firestore currentId (x.sent.path currentId) =
              some (OutgoingMessages.markRead (g.string t) x.sent.data) ∧
            attributedTextForCellBottomLabelAt f rule s.chat row =
              some ("Read " ++ g.stringIn rule "HH:mm" t)) := by
  intro incoming
  have h := readable_of_run hactions hrun
  have hw := statuses_of_run hactions hrun
  obtain ⟨s, shown, hs, hobject, hshown, hread⟩ := h.openChat random currentId chatRoomId f now
  refine ⟨s, shown, hs, hread, fun row x hrow => ?_⟩
  have hlength : shown.length = s.chat.messages.length := hread.length_eq
  obtain ⟨m, hm, hx⟩ : ∃ m, (firstPage (w.collection currentId chatRoomId))[row]? = some m ∧
      DocumentOf w currentId chatRoomId x m := by
    obtain ⟨hlt, rfl⟩ := List.getElem?_eq_some_iff.mp hrow
    obtain ⟨x', m, hx', hm, hdocument⟩ := Rows.forall₂_getElem? hshown (hshown.length_eq ▸ hlt)
    rw [List.getElem?_eq_getElem hlt] at hx'
    obtain rfl := Option.some.inj hx'
    exact ⟨m, hm, hdocument⟩
  obtain ⟨hview, hstatus⟩ := hx.view_eq h hw (List.mem_of_getElem? hm)
  have hdocument : s.chat.objectMessages[row]? = some m := by rw [hobject, hm]
  have hsent : x.messageDictionary.status = some kDELIVERED := status_encoded x.encoded
  -- the copy is as it was sent, or as an update has marked it
  rcases hstatus with hdelivered | ⟨readDate, hasked, hmarked⟩
  · have hlabel : attributedTextForCellBottomLabelAt f rule s.chat row =
        some (if row + 1 = s.chat.messages.length then kDELIVERED else "") := by
      rw [attributedTextForCellBottomLabelAt, hdocument, hdelivered]
      simp [SendCall.data, WrittenMessage.sent, hsent]
    rw [hlabel, hlength]
    refine ⟨fun hne => by rw [if_neg hne], fun hlast => .inl ⟨hdelivered ▸ hview, ?_⟩⟩
    rw [if_pos hlast]
  · obtain ⟨g, t, hyears, rfl⟩ := hclocks _ _ hasked
    have hlabel : attributedTextForCellBottomLabelAt f rule s.chat row =
        some (if row + 1 = s.chat.messages.length then "Read " ++ g.stringIn rule "HH:mm" t
          else "") := by
      have hne : ¬ kREAD = kDELIVERED := by decide
      rw [attributedTextForCellBottomLabelAt, hdocument, hmarked]
      simp [OutgoingMessages.markRead, readTimeFrom_string f rule hyears, hne]
    rw [hlabel, hlength]
    refine ⟨fun hne => by rw [if_neg hne], fun hlast => .inr ⟨g, t, hasked, hmarked ▸ hview, ?_⟩⟩
    rw [if_pos hlast]

/-- Bob reads the later of Alice's greetings, and both copies are marked. -/
def greetingRead : List MessageAction :=
  aliceGreetsTwice ++
    [.updateMessage "bob" ((dateFormatter 0).string (secondOf 30)) "1" "alicebob" ["alice", "bob"],
      .getDocument 0, .getDocument 0, .commit "bob", .commit "bob"]

open MessageWorld in
/-- Alice opens the chat: nothing stands below her first greeting, and below the second one when
it was read. -/
theorem opened_chat_status_read :
    ∃ w, Runs.exec MessageWorld.step init greetingRead = some w ∧
      ∃ s, ∃ shown : List (WrittenMessage RNCryptor.xorCrypto),
        (IncomingMessage.withRNCryptor RNCryptor.xorCrypto RNCryptor.zeroRandomData "alice" "alicebob"
          (dateFormatter 3600) 0).chatScreen.openChat (w.collection "alice" "alicebob") = .ok s ∧
        shown.length = 2 ∧
        attributedTextForCellBottomLabelAt (dateFormatter 3600) .iso s.chat 0 = some "" ∧
        ∃ (g : DateFormatter) (t : Date), attributedTextForCellBottomLabelAt (dateFormatter 3600)
          .iso s.chat 1 = some ("Read " ++ g.stringIn .iso "HH:mm" t) := by
  have hactions : ∀ a ∈ greetingRead, Writes RNCryptor.xorCrypto a := by
    intro a ha
    rcases List.mem_append.mp ha with ha | ha
    · exact writes_greetings a (List.mem_append_left _ ha)
    · simp only [List.mem_cons, List.not_mem_nil, or_false] at ha
      rcases ha with rfl | rfl | rfl | rfl | rfl <;> trivial
  have hclocks : ∀ withId readDate, Asked greetingRead withId readDate →
      ∃ (g : DateFormatter) (t : Date), g.InYears t ∧ readDate = g.string t := by
    rintro withId readDate ⟨currentId, chatRoomId, memberIds, hmem⟩
    simp only [greetingRead, aliceGreetsTwice, List.cons_append, List.nil_append, List.mem_cons,
      reduceCtorEq, MessageAction.updateMessage.injEq, List.not_mem_nil, or_false, false_or] at hmem
    exact ⟨dateFormatter 0, secondOf 30, inYears_secondOf (by decide), hmem.2.1⟩
  obtain ⟨w, hrun, htwo⟩ : ∃ w, Runs.exec MessageWorld.step init greetingRead = some w ∧
      ((IncomingMessage.withRNCryptor RNCryptor.xorCrypto RNCryptor.zeroRandomData "alice"
        "alicebob" (dateFormatter 3600) 0).chatScreen.openChat
          (w.collection "alice" "alicebob")).toOption.any (fun s => s.chat.messages.length = 2 ∧
            attributedTextForCellBottomLabelAt (dateFormatter 3600) .iso s.chat 1 ≠
              some kDELIVERED) = true := Runs.exists_of_any (by decide +kernel)
  obtain ⟨s, shown, hs, hshown, hlabels⟩ := opened_chat_status RNCryptor.xorCrypto greetingRead w
    hactions hclocks hrun RNCryptor.zeroRandomData "alice" "alicebob" (dateFormatter 3600) .iso 0
  rw [hs] at htwo
  obtain ⟨htwo, hmarked⟩ := of_decide_eq_true htwo
  have hlength : shown.length = 2 := hshown.length_eq.trans htwo
  refine ⟨w, hrun, s, shown, hs, hlength, ?_, ?_⟩
  · exact (hlabels 0 shown[0] (List.getElem?_eq_getElem _)).1 (by omega)
  · rcases (hlabels 1 shown[1] (List.getElem?_eq_getElem _)).2 hlength.symm with
      ⟨-, hlabel⟩ | ⟨g, t, -, -, hlabel⟩
    · exact absurd hlabel hmarked
    · exact ⟨g, t, hlabel⟩

end LiChat
