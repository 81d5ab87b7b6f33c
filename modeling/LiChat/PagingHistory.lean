import LiChat.ShownMessages

/-!
# What paging reveals

The header shows the loaded messages from their end on, eleven at a time.
-/

namespace LiChat
open Windows ChatScreen

/-- An answer to the background query: what is older than the first loaded message in
a collection that has the loaded messages under their dates. -/
def AnswersQuery (loadedMessages : List MessageDictionary) (docs : List MessageDocument) : Prop :=
  ∃ collection : MessageCollection, docs = oldMessages loadedMessages collection.documents ∧
    ∀ d ∈ collection.documents, ∀ m ∈ loadedMessages, d.data.messageId = m.messageId →
      d.data.date = m.date

namespace AnswersQuery
variable {loadedMessages : List MessageDictionary} {docs : List MessageDocument}

theorem stored (h : AnswersQuery loadedMessages docs) :
    ∀ d ∈ docs, d.data.legit → StoredMessage d.data := by
  obtain ⟨collection, rfl, -⟩ := h
  exact fun d hd hlegit => collection.stored d (mem_oldMessages hd).1 hlegit

theorem dateString_lt (h : AnswersQuery loadedMessages docs)
    (hsorted : Ascending MessageDictionary.dateString loadedMessages) :
    ∀ m ∈ legitMessages docs, ∀ m' ∈ loadedMessages, m.dateString < m'.dateString := by
  obtain ⟨collection, rfl, -⟩ := h
  intro m hm m' hm'
  obtain ⟨d, hd, rfl, -⟩ := mem_legitMessages.mp hm
  obtain ⟨-, first, hfirst, hlt⟩ := mem_oldMessages hd
  exact hlt.trans_le (hsorted.head_le hfirst hm')

theorem ascending (h : AnswersQuery loadedMessages docs)
    (hsorted : Ascending MessageDictionary.dateString loadedMessages) :
    Ascending MessageDictionary.dateString (legitMessages docs ++ loadedMessages) :=
  List.pairwise_append.mpr ⟨ascending_sorted_filter _, hsorted,
    fun m hm m' hm' => (h.dateString_lt hsorted m hm m' hm').le⟩

theorem nodup_messageId (h : AnswersQuery loadedMessages docs)
    (hsorted : Ascending MessageDictionary.dateString loadedMessages)
    (hids : (loadedMessages.map MessageDictionary.messageId).Nodup) :
    ((legitMessages docs ++ loadedMessages).map MessageDictionary.messageId).Nodup := by
  have hlt := h.dateString_lt hsorted
  obtain ⟨collection, rfl, hdates⟩ := h
  have hsublist : ((dictionaryFromSnapshots (oldMessages loadedMessages collection.documents)).map
      MessageDictionary.messageId).Nodup :=
    collection.nodup_messageId.sublist (((oldMessages_sublist _).map _).map _)
  rw [List.map_append]
  refine List.nodup_append.mpr ⟨nodup_legitMessages hsublist, hids, ?_⟩
  rintro _ hid _ hid' rfl
  obtain ⟨m, hm, hmid⟩ := List.mem_map.mp hid
  obtain ⟨m', hm', hmid'⟩ := List.mem_map.mp hid'
  obtain ⟨d, hd, rfl, -⟩ := mem_legitMessages.mp hm
  have hdate := hdates d (mem_oldMessages hd).1 m' hm' (hmid.trans hmid'.symm)
  have hlt' := hlt d.data hm m' hm'
  rw [MessageDictionary.dateString, MessageDictionary.dateString, hdate] at hlt'
  exact absurd hlt' (lt_irrefl _)

end AnswersQuery

namespace ChatEvent

/-- The message that the event appends to the shown ones. -/
def addedMessage : ChatEvent → List MessageDictionary
  | added item => if item.legit then [item] else []
  | _ => []

def isTap : ChatEvent → Bool
  | didTapLoadEarlierMessagesButton => true
  | _ => false

end ChatEvent

def addedMessages (events : List ChatEvent) : List MessageDictionary :=
  events.flatMap ChatEvent.addedMessage

def taps (events : List ChatEvent) : ℕ := events.countP ChatEvent.isTap

structure History {JSQMessage : Type} (vc : ChatScreen JSQMessage) (s : OpenChat JSQMessage)
    (events : List ChatEvent) : Prop where
  pages : Pages s
  showable : ∀ m ∈ s.chat.loadedMessages, Showable vc m
  ascending : Ascending MessageDictionary.dateString s.chat.loadedMessages
  ids : (s.chat.loadedMessages.map MessageDictionary.messageId).Nodup
  count : s.chat.loadedMessagesCount =
    (min s.chat.loadedMessages.length (10 + 11 * taps events) : ℕ)
  shown : s.chat.objectMessages =
    s.chat.loadedMessages.rtake s.chat.loadedMessagesCount.toNat ++ addedMessages events
  header : s.chat.showLoadEarlierMessagesHeader =
    decide (s.chat.loadedMessagesCount ≠ s.chat.loadedMessages.length)

namespace History
variable {JSQMessage : Type} {vc : ChatScreen JSQMessage} {s : OpenChat JSQMessage}
  {events : List ChatEvent}

theorem header_iff (h : History vc s events) : s.chat.showLoadEarlierMessagesHeader = true ↔
    s.chat.loadedMessagesCount < s.chat.loadedMessages.length := by
  rw [h.header, decide_eq_true_iff, h.count]
  omega

theorem addedMessages_concat (e : ChatEvent) :
    addedMessages (events ++ [e]) = addedMessages events ++ e.addedMessage := by
  rw [addedMessages, List.flatMap_append, List.flatMap_singleton, addedMessages]

theorem taps_concat (e : ChatEvent) :
    taps (events ++ [e]) = taps events + if e.isTap then 1 else 0 := by
  rw [taps, List.countP_append, List.countP_singleton, taps]

theorem append (h : History vc s events) {chat : ChatState JSQMessage} {e : ChatEvent}
    (hsame : SamePages s.chat chat)
    (hobject : chat.objectMessages = s.chat.objectMessages ++ e.addedMessage)
    (htap : e.isTap = false) : History vc { s with chat := chat } (events ++ [e]) where
  pages := pages_of_samePages hsame h.pages
  showable := hsame.loaded ▸ h.showable
  ascending := hsame.loaded ▸ h.ascending
  ids := hsame.loaded ▸ h.ids
  count := by
    simp only [hsame.count, hsame.loaded, h.count, taps_concat, htap]
    rfl
  shown := by
    simp only [hobject, h.shown, hsame.count, hsame.loaded, addedMessages_concat, List.append_assoc]
  header := by
    simp only [hsame.header, hsame.count, hsame.loaded, h.header]

theorem added (h : History vc s events) {item : MessageDictionary}
    (hitem : item.legit → Showable vc item) : ∃ chat, vc.addedMessage item s.chat = .ok chat ∧
      History vc { s with chat := chat } (events ++ [.added item]) := by
  obtain ⟨chat, hchat, hobject⟩ := addedMessage_ok hitem s.chat
  have hsame := vc.addedMessage_outcome item s.chat
  rw [hchat] at hsame
  exact ⟨chat, hchat, h.append hsame hobject rfl⟩

theorem tap (h : History vc s events) (hback : s.background = .completed)
    (hheader : s.chat.showLoadEarlierMessagesHeader = true) :
    ∃ chat, vc.loadMoreMessages s.chat.maxMessageNumber s.chat.minMessageNumber s.chat = .ok chat ∧
      chat.loadedMessages = s.chat.loadedMessages ∧
      History vc { s with chat := chat } (events ++ [.didTapLoadEarlierMessagesButton]) := by
  obtain ⟨n, hn⟩ : ∃ n, s.chat.loadedMessages.length = n := ⟨_, rfl⟩
  have hlt := h.header_iff.mp hheader
  have hcount : s.chat.loadedMessagesCount = (10 + 11 * taps events : ℕ) := by
    have hmin := h.count
    omega
  have hpages : NextPage s.chat ∨ LaterPage s.chat := by
    have hpages := h.pages
    rwa [Pages, hback] at hpages
  obtain ⟨chat, hchat, hloaded, hcount', hobject, hheader'⟩ := loadMoreMessages_ok
    s.chat.maxMessageNumber hcount (by omega) (nextBounds hpages hcount) h.showable
  have hlater := vc.loadMoreMessages_later s.chat.maxMessageNumber hpages hheader
  rw [hchat] at hlater
  refine ⟨chat, hchat, hloaded, ?_, ?_, ?_, ?_, ?_, ?_, hheader'⟩
  · rw [Pages, hback]
    exact Or.inr hlater
  · exact hloaded ▸ h.showable
  · exact hloaded ▸ h.ascending
  · exact hloaded ▸ h.ids
  · rw [hcount', hloaded, taps_concat]
    congr 1
  · have hmin : s.chat.loadedMessages.rtake (min s.chat.loadedMessages.length
        (10 + 11 * taps events + 11)) =
        s.chat.loadedMessages.rtake (10 + 11 * taps events + 11) := by
      rw [List.rtake, List.rtake]
      congr 1
      omega
    simp only [hobject, h.shown, ChatState.nextPage, hcount, hcount', hloaded,
      addedMessages_concat, Int.toNat_natCast, hmin, ← List.append_assoc, rtake_take_append_rtake]
    exact (List.append_nil _).symm

theorem background (h : History vc s events) (hback : s.background = .issued)
    {docs : List MessageDocument} (hdocs : AnswersQuery s.chat.loadedMessages docs)
    (hvc : ∀ m, StoredMessage m → Showable vc m) :
    ∃ chat, oldMessagesLoaded docs s.chat = .ok chat ∧
      History vc ⟨chat, .completed⟩ (events ++ [.backgroundSnapshot (some docs)]) := by
  have hpages := h.pages
  rw [Pages, hback] at hpages
  obtain ⟨hfirst, hten⟩ := hpages
  have hcount := h.count
  have hloaded := hfirst.loaded
  obtain ⟨chat, hchat, hnext, hloaded', hcount', hobject, hheader⟩ :=
    oldMessagesLoaded_ok hfirst hten h.showable
      fun d hd hlegit => hvc d.data (hdocs.stored d hd hlegit)
  have hlength : chat.loadedMessages.length = (legitMessages docs).length + 11 := by
    rw [hloaded', List.length_append, hloaded]
  refine ⟨chat, hchat, Or.inl hnext, ?_, ?_, ?_, ?_, ?_, ?_⟩
  · rw [hloaded']
    exact List.forall_mem_append.mpr ⟨forall_mem_legitMessages.mpr
      fun d hd hlegit => hvc d.data (hdocs.stored d hd hlegit), h.showable⟩
  · rw [hloaded']
    exact hdocs.ascending h.ascending
  · rw [hloaded']
    exact hdocs.nodup_messageId h.ascending h.ids
  · simp only [hcount', hten, hlength, taps_concat, ChatEvent.isTap, Bool.false_eq_true, if_false]
    rw [hten, hloaded] at hcount
    omega
  · simp only [hobject, h.shown, hten, hcount', addedMessages_concat, ChatEvent.addedMessage,
      List.append_nil, hloaded']
    rw [List.rtake_eq_reverse_take_reverse, List.rtake_eq_reverse_take_reverse,
      List.reverse_append, List.take_append_of_le_length]
    simp [hloaded]
  · simp only [hheader, h.header, hcount', hten, hlength, hloaded]
    simp
    omega

theorem failed (h : History vc s events) (hback : s.background = .issued) :
    History vc { s with background := .failed } (events ++ [.backgroundSnapshot none]) := by
  have hpages := h.pages
  rw [Pages, hback] at hpages
  refine ⟨hpages.1, h.showable, h.ascending, h.ids, ?_, ?_, h.header⟩
  · rw [taps_concat]
    exact h.count
  · rw [addedMessages_concat]
    exact h.shown.trans (congrArg _ (List.append_nil _).symm)

theorem exists_taps (h : History vc s events)
    (hback : s.background = .completed ∨ s.background = .notIssued) :
    ∃ (k : ℕ) (s' : OpenChat JSQMessage),
      Runs.exec vc.step (.ok s) (List.replicate k .didTapLoadEarlierMessagesButton) =
        some (.ok s') ∧
      s'.chat.loadedMessages = s.chat.loadedMessages ∧
      s'.chat.loadedMessagesCount = s'.chat.loadedMessages.length := by
  obtain ⟨rest, hrest⟩ : ∃ rest : ℕ,
      s.chat.loadedMessages.length - s.chat.loadedMessagesCount ≤ rest :=
    ⟨(s.chat.loadedMessages.length - s.chat.loadedMessagesCount).toNat, Int.self_le_toNat _⟩
  induction rest generalizing s events with
  | zero =>
    have hcount := h.count
    exact ⟨0, s, rfl, rfl, by omega⟩
  | succ rest ih =>
    cases hheader : s.chat.showLoadEarlierMessagesHeader with
    | false =>
      have hall := h.header.symm.trans hheader
      exact ⟨0, s, rfl, rfl, by simpa using hall⟩
    | true =>
      have hcompleted : s.background = .completed := by
        apply hback.resolve_right
        intro hnot
        have hpages := h.pages
        rw [Pages, hnot] at hpages
        exact absurd (hheader.symm.trans hpages) (by decide)
      obtain ⟨chat, hchat, hloaded, hnext⟩ := h.tap hcompleted hheader
      have hlt := h.header_iff.mp hheader
      have hcount := h.count
      have hcount' := hnext.count
      rw [taps_concat, hloaded] at hcount'
      simp only [ChatEvent.isTap, if_true] at hcount'
      obtain ⟨k, s', hs', hloaded', hall⟩ := ih hnext hback (by simp only [hloaded]; omega)
      refine ⟨k + 1, s', ?_, hloaded'.trans hloaded, hall⟩
      rw [List.replicate_succ, Runs.exec_cons, step, if_pos hheader, hchat]
      exact hs'

end History

namespace ChatScreen
variable {JSQMessage : Type}

/-- The header is tapped after the background query has been answered, and all
documents are the app's. -/
def OfApp : Except Trap (OpenChat JSQMessage) → ChatEvent → Prop
  | .ok s, .didTapLoadEarlierMessagesButton => s.background = .completed
  | .ok s, .backgroundSnapshot (some docs) => AnswersQuery s.chat.loadedMessages docs
  | _, .added item => item.legit → StoredMessage item
  | _, _ => True

/-- Whatever the events have led to, nothing has trapped; of the loaded messages exactly
the last `loadedMessagesCount` are shown, in the order of their dates and once each, ahead
of the new ones; the header is shown as long as some are missing; and finitely many taps
show them all. -/
def RevealsHistory (vc : ChatScreen JSQMessage) (docs : List MessageDocument)
    (events : List ChatEvent) : Prop :=
  ∀ r, Runs.exec vc.step (vc.openChat docs) events = some r → ∃ s, r = .ok s ∧
    s.chat.objectMessages =
      s.chat.loadedMessages.rtake s.chat.loadedMessagesCount.toNat ++ addedMessages events ∧
    s.chat.loadedMessagesCount = (min s.chat.loadedMessages.length (10 + 11 * taps events) : ℕ) ∧
    Ascending MessageDictionary.dateString s.chat.loadedMessages ∧
    (s.chat.loadedMessages.map MessageDictionary.messageId).Nodup ∧
    (s.chat.showLoadEarlierMessagesHeader = true ↔
      s.chat.loadedMessagesCount < s.chat.loadedMessages.length) ∧
    (s.background = .completed ∨ s.background = .notIssued → ∃ k s',
      Runs.exec vc.step (.ok s) (List.replicate k .didTapLoadEarlierMessagesButton) =
        some (.ok s') ∧
      s'.chat.loadedMessages = s.chat.loadedMessages ∧
      s'.chat.loadedMessagesCount = s'.chat.loadedMessages.length)

section Runs
variable {vc : ChatScreen JSQMessage} (hvc : ∀ m, StoredMessage m → Showable vc m)
include hvc

theorem openChat_history (collection : MessageCollection) :
    ∃ s, vc.openChat collection.documents = .ok s ∧ History vc s [] := by
  obtain ⟨s, hopen, hpages, hloaded, hshowable, hcount, hobject, hheader⟩ :=
    openChat_ok fun d hd hlegit => hvc d.data (collection.stored d hd hlegit)
  refine ⟨s, hopen, hpages, hshowable, ?_, ?_, hcount, ?_, hheader⟩
  · rw [hloaded]
    exact ascending_sorted_filter _
  · rw [hloaded]
    exact nodup_legitMessages (nodup_lastEleven collection.nodup_messageId)
  · simp only [hobject, hcount, Int.toNat_natCast, addedMessages, List.flatMap_nil,
      List.append_nil, List.rtake]
    congr 1
    omega

theorem step_history {r r' : Except Trap (OpenChat JSQMessage)} {events : List ChatEvent}
    {e : ChatEvent} (hr : ∃ s, r = .ok s ∧ History vc s events) (he : OfApp r e)
    (h : vc.step r e = some r') : ∃ s, r' = .ok s ∧ History vc s (events ++ [e]) := by
  obtain ⟨s, rfl, hs⟩ := hr
  cases e with
  | didTapLoadEarlierMessagesButton =>
    simp only [step, Option.ite_none_right_eq_some] at h
    obtain ⟨hheader, h⟩ := h
    obtain ⟨chat, hchat, -, hnext⟩ := hs.tap he hheader
    obtain rfl := Option.some.inj h
    rw [hchat]
    exact ⟨_, rfl, hnext⟩
  | backgroundSnapshot snapshot =>
    simp only [step, Option.ite_none_right_eq_some] at h
    obtain ⟨hback, h⟩ := h
    cases snapshot with
    | none =>
      obtain rfl := Option.some.inj h
      exact ⟨_, rfl, hs.failed hback⟩
    | some docs =>
      obtain ⟨chat, hchat, hnext⟩ := hs.background hback he hvc
      obtain rfl := Option.some.inj h
      rw [hchat]
      exact ⟨_, rfl, hnext⟩
  | added item =>
    obtain ⟨chat, hchat, hnext⟩ := hs.added fun hlegit => hvc item (he hlegit)
    obtain rfl := Option.some.inj h
    rw [hchat]
    exact ⟨_, rfl, hnext⟩

end Runs

/-- However many taps there are between new messages, paging reveals what is loaded from
its end on and in order. -/
theorem loadMoreMessages_reveals_history (incoming : IncomingMessage)
    (collection : MessageCollection) (events : List ChatEvent)
    (hevents : Runs.Guarded incoming.chatScreen.step OfApp
      (incoming.chatScreen.openChat collection.documents) events) :
    RevealsHistory incoming.chatScreen collection.documents events := by
  intro r hr
  have hvc : ∀ m, StoredMessage m → Showable incoming.chatScreen m :=
    fun m hm => hm.showable incoming
  have hstep : ∀ r past e r',
      (∃ s, r = .ok s ∧ History incoming.chatScreen s past) → OfApp r e →
      incoming.chatScreen.step r e = some r' →
      ∃ s, r' = .ok s ∧ History incoming.chatScreen s (past ++ [e]) :=
    fun r past e r' => step_history hvc
  obtain ⟨s, rfl, hs⟩ := Runs.exec_history hstep (openChat_history hvc collection) hevents hr
  exact ⟨s, rfl, hs.shown, hs.count, hs.ascending, hs.ids, hs.header_iff, hs.exists_taps⟩

theorem openChat_twelveTexts :
    ∃ s, bobIncoming.chatScreen.openChat twelveTexts.documents = .ok s ∧ s.background = .issued ∧
      AnswersQuery s.chat.loadedMessages [textOfAlice 0] := by
  have hopened : (match bobIncoming.chatScreen.openChat twelveTexts.documents with
      | .ok s => decide (s.background = .issued ∧
          oldMessages s.chat.loadedMessages twelveTexts.documents = [textOfAlice 0] ∧
          ∀ d ∈ twelveTexts.documents, ∀ m ∈ s.chat.loadedMessages,
            d.data.messageId = m.messageId → d.data.date = m.date)
      | .error _ => false) = true := by decide +kernel
  cases hopen : bobIncoming.chatScreen.openChat twelveTexts.documents with
  | error t =>
    rw [hopen] at hopened
    exact absurd hopened Bool.false_ne_true
  | ok s =>
    rw [hopen] at hopened
    obtain ⟨hissued, hold, hdates⟩ := of_decide_eq_true hopened
    exact ⟨s, rfl, hissued, twelveTexts, hold.symm, hdates⟩

/-- Twelve messages: ten are shown at first, the eleventh has been loaded with them, and the
background query finds the twelfth. -/
theorem loadMoreMessages_reveals_twelve :
    (Runs.exec bobIncoming.chatScreen.step
      (bobIncoming.chatScreen.openChat twelveTexts.documents)
      [.backgroundSnapshot (some [textOfAlice 0]), .didTapLoadEarlierMessagesButton]).isSome ∧
    RevealsHistory bobIncoming.chatScreen twelveTexts.documents
      [.backgroundSnapshot (some [textOfAlice 0]), .didTapLoadEarlierMessagesButton] := by
  refine ⟨by decide +kernel, ?_⟩
  apply loadMoreMessages_reveals_history
  obtain ⟨s, hopen, -, hanswers⟩ := openChat_twelveTexts
  rw [hopen]
  refine Runs.guarded_cons.mpr fun r hr =>
    ⟨hanswers, Runs.guarded_cons.mpr fun r' _ => ⟨?_, Runs.guarded_nil⟩⟩
  simp only [step, Option.ite_none_right_eq_some] at hr
  obtain rfl := Option.some.inj hr.2
  cases oldMessagesLoaded [textOfAlice 0] s.chat with
  | ok chat => exact rfl
  | error t => trivial

end ChatScreen

end LiChat
