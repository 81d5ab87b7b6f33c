import LiChat.General.Windows
import LiChat.Messages
import Mathlib.Data.Prod.Lex

/-!
# Loading a chat

The history of a chat is read by three queries: the newest eleven documents, the
documents before the first loaded one, and a listener for the documents after the
last loaded one.  A loaded message may have any type or none; such bad messages
are removed after each query.
-/

namespace LiChat
open Windows

/-- kDATE of a document that a query by kDATE has returned. -/
def MessageDictionary.dateString (message : MessageDictionary) : String := message.date.getD ""

/-- The type is there and is one of `legitTypes`. -/
def MessageDictionary.legit (message : MessageDictionary) : Bool :=
  match message.type with
  | some type => legitTypes.contains type
  | none => false

structure MessageDocument where
  documentID : String
  data : MessageDictionary
  deriving DecidableEq, Repr

namespace MessageDocument

def dateString (d : MessageDocument) : String := d.data.dateString

/-- The order of a query by kDATE: ties go by the document id. -/
def key (d : MessageDocument) : String ×ₗ String := toLex (d.dateString, d.documentID)

end MessageDocument

/-- `tempMessages.remove(at: tempMessages.index(of: message)!)` -/
def removeMessage (tempMessages : List MessageDictionary) (message : MessageDictionary) :
    Option (List MessageDictionary) :=
  if message ∈ tempMessages then some (tempMessages.erase message) else none

/-- One round of the loop of `removeBadMessages`. -/
def removeBadMessage (tempMessages : List MessageDictionary) (message : MessageDictionary) :
    Option (List MessageDictionary) :=
  match message.type with
  | some type =>
    if legitTypes.contains type then some tempMessages else removeMessage tempMessages message
  | none => removeMessage tempMessages message

def removeBadMessages (allMessages : List MessageDictionary) : Option (List MessageDictionary) :=
  allMessages.foldlM removeBadMessage allMessages

theorem removeBadMessage_legit {tempMessages : List MessageDictionary} {message : MessageDictionary}
    (h : message.legit) : removeBadMessage tempMessages message = some tempMessages := by
  unfold MessageDictionary.legit at h
  unfold removeBadMessage
  split at h <;> simp_all

theorem removeBadMessage_bad {tempMessages : List MessageDictionary} {message : MessageDictionary}
    (h : ¬ message.legit) :
    removeBadMessage tempMessages message = removeMessage tempMessages message := by
  unfold MessageDictionary.legit at h
  unfold removeBadMessage
  split at h <;> simp_all

theorem foldlM_removeBadMessage (rest : List MessageDictionary) :
    ∀ tempMessages : List MessageDictionary,
      (tempMessages.filter fun m => !m.legit).Perm (rest.filter fun m => !m.legit) →
      rest.foldlM removeBadMessage tempMessages = some (tempMessages.filter (·.legit)) := by
  induction rest with
  | nil =>
    intro tempMessages h
    have hbad : (tempMessages.filter fun m => !m.legit) = [] := by simpa using h
    have hlegit : ∀ m ∈ tempMessages, m.legit := by simpa using hbad
    rw [List.filter_eq_self.mpr hlegit]
    rfl
  | cons message rest ih =>
    intro tempMessages h
    rw [List.foldlM_cons]
    by_cases hm : message.legit
    · rw [removeBadMessage_legit hm]
      apply ih
      simpa [hm] using h
    · -- the bad messages that the loop has passed are gone, this one is not
      have hmem : message ∈ tempMessages := by
        have hrest : message ∈ tempMessages.filter fun m => !m.legit :=
          h.mem_iff.mpr (by simp [hm])
        exact List.mem_of_mem_filter hrest
      have hsame : (tempMessages.erase message).filter (·.legit) =
          tempMessages.filter (·.legit) := by
        rw [← List.erase_filter, List.erase_of_not_mem (by simp [hm])]
      rw [removeBadMessage_bad hm, removeMessage, if_pos hmem, ← hsame]
      apply ih
      rw [← List.erase_filter]
      have herase := h.erase message
      rwa [List.filter_cons_of_pos (by simp [hm]), List.erase_cons_head] at herase

theorem removeBadMessages_eq_filter (allMessages : List MessageDictionary) :
    removeBadMessages allMessages = some (allMessages.filter (·.legit)) :=
  foldlM_removeBadMessage allMessages allMessages (List.Perm.refl _)

/-- `removeBadMessages` is a filter, and every bad message that the loop comes to is still in
the list: the unwrapped `index(of:)` is there. -/
theorem removeBadMessages_filters_and_unwraps (allMessages : List MessageDictionary) :
    removeBadMessages allMessages = some (allMessages.filter (·.legit)) ∧
      ∀ passed message rest, allMessages = passed ++ message :: rest →
        ∃ tempMessages, passed.foldlM removeBadMessage allMessages = some tempMessages ∧
          (¬ message.legit → message ∈ tempMessages) := by
  have hfilter := removeBadMessages_eq_filter allMessages
  refine ⟨hfilter, fun passed message rest hsplit => ?_⟩
  have hrun : (passed ++ message :: rest).foldlM removeBadMessage allMessages =
      some (allMessages.filter (·.legit)) := hsplit ▸ hfilter
  rw [List.foldlM_append] at hrun
  obtain ⟨tempMessages, htemp, hrest⟩ := Option.bind_eq_some_iff.mp hrun
  refine ⟨tempMessages, htemp, fun hbad => ?_⟩
  rw [List.foldlM_cons, removeBadMessage_bad hbad, removeMessage] at hrest
  by_contra hgone
  rw [if_neg hgone] at hrest
  cases hrest

/-- The documents that a query by kDATE sees. -/
def hasDate (docs : List MessageDocument) : List MessageDocument :=
  docs.filter fun d => d.data.date.isSome

/-- `order(by: kDATE, descending: true).limit(to: 11)` -/
def lastElevenMessages (docs : List MessageDocument) : List MessageDocument :=
  newest MessageDocument.key 11 (hasDate docs)

/-- `whereField(kDATE, isLessThan: date)` -/
def isLessThan (date : String) (docs : List MessageDocument) : List MessageDocument :=
  (hasDate docs).filter fun d => d.dateString < date

/-- `whereField(kDATE, isGreaterThan: date)` -/
def isGreaterThan (date : String) (docs : List MessageDocument) : List MessageDocument :=
  (hasDate docs).filter fun d => date < d.dateString

def dictionaryFromSnapshots (docs : List MessageDocument) : List MessageDictionary :=
  docs.map MessageDocument.data

/-- `sortedArray(using: [NSSortDescriptor(key: kDATE, ascending: true)])` -/
def sortedArray (messages : List MessageDictionary) : List MessageDictionary :=
  ascending MessageDictionary.dateString messages

/-- `loadedMessages` after the initial query. -/
def loadMessages (docs : List MessageDocument) : Option (List MessageDictionary) :=
  removeBadMessages (sortedArray (dictionaryFromSnapshots (lastElevenMessages docs)))

/-- The documents that the background query returns; it is not issued for ten
messages or fewer. -/
def oldMessages (loadedMessages : List MessageDictionary) (docs : List MessageDocument) :
    List MessageDocument :=
  if loadedMessages.length > 10 then
    match loadedMessages.head? with
    | some firstMessage => isLessThan firstMessage.dateString docs
    | none => []
  else []

/-- `loadedMessages` after the background query. -/
def getOldmessagesInBackground (loadedMessages : List MessageDictionary)
    (docs : List MessageDocument) : Option (List MessageDictionary) :=
  (removeBadMessages (sortedArray (dictionaryFromSnapshots (oldMessages loadedMessages docs)))).map
    (· ++ loadedMessages)

def lastMessagesDate (loadedMessages : List MessageDictionary) : String :=
  match loadedMessages.getLast? with
  | some message => message.dateString
  | none => "0"

/-- The documents that the listener reports as added: those that are there when it
starts and those that arrive later. -/
def addedDocuments (loadedMessages : List MessageDictionary) (docs : List MessageDocument) :
    List MessageDocument :=
  isGreaterThan (lastMessagesDate loadedMessages) docs

/-- The added messages that `listenForNewChats` puts on the screen. -/
def listenForNewChats (loadedMessages : List MessageDictionary) (docs : List MessageDocument) :
    List MessageDictionary :=
  (dictionaryFromSnapshots (addedDocuments loadedMessages docs)).filter (·.legit)

def olderMessages (docs : List MessageDocument) : List MessageDocument :=
  older MessageDocument.key 11 (hasDate docs)

section Window
variable {docs : List MessageDocument}

theorem hasDate_eq (h : ∀ d ∈ docs, d.data.date.isSome) : hasDate docs = docs :=
  List.filter_eq_self.mpr h

theorem lastEleven_append_older (h : ∀ d ∈ docs, d.data.date.isSome) :
    (lastElevenMessages docs ++ olderMessages docs).Perm docs := by
  unfold lastElevenMessages olderMessages
  rw [hasDate_eq h]
  exact newest_append_older MessageDocument.key 11 docs

theorem dateString_older_le {d m : MessageDocument} (hd : d ∈ olderMessages docs)
    (hm : m ∈ lastElevenMessages docs) : d.dateString ≤ m.dateString :=
  Prod.Lex.monotone_fst _ _ (key_older_le hm hd)

/-- What `removeBadMessages` leaves of the sorted documents. -/
def legitMessages (docs : List MessageDocument) : List MessageDictionary :=
  (sortedArray (dictionaryFromSnapshots docs)).filter (·.legit)

theorem mem_legitMessages {m : MessageDictionary} :
    m ∈ legitMessages docs ↔ ∃ d ∈ docs, d.data = m ∧ m.legit := by
  rw [legitMessages, List.mem_filter, sortedArray, (ascending_perm _ _).mem_iff,
    dictionaryFromSnapshots, List.mem_map]
  constructor
  · rintro ⟨⟨d, hd, hdm⟩, hm⟩
    exact ⟨d, hd, hdm, hm⟩
  · rintro ⟨d, hd, hdm, hm⟩
    exact ⟨⟨d, hd, hdm⟩, hm⟩

/-- What the initial query leaves in `loadedMessages`. -/
def initialMessages (docs : List MessageDocument) : List MessageDictionary :=
  (sortedArray (dictionaryFromSnapshots (lastElevenMessages docs))).filter (·.legit)

theorem loadMessages_eq (docs : List MessageDocument) :
    loadMessages docs = some (initialMessages docs) :=
  removeBadMessages_eq_filter _

theorem getOldmessagesInBackground_eq (loadedMessages : List MessageDictionary)
    (docs : List MessageDocument) : getOldmessagesInBackground loadedMessages docs =
      some ((sortedArray (dictionaryFromSnapshots (oldMessages loadedMessages docs))).filter
        (·.legit) ++ loadedMessages) := by
  rw [getOldmessagesInBackground, removeBadMessages_eq_filter, Option.map_some]

theorem initialMessages_perm (docs : List MessageDocument) : (initialMessages docs).Perm
    ((dictionaryFromSnapshots (lastElevenMessages docs)).filter (·.legit)) :=
  (ascending_perm _ _).filter _

theorem ascending_sorted_filter (messages : List MessageDictionary) :
    Ascending MessageDictionary.dateString ((sortedArray messages).filter (·.legit)) :=
  (ascending_ascending _ _).sublist List.filter_sublist

theorem mem_initialMessages {m : MessageDictionary} :
    m ∈ initialMessages docs ↔ ∃ d ∈ lastElevenMessages docs, d.data = m ∧ m.legit :=
  mem_legitMessages

theorem dateString_le_last (h : ∀ d ∈ docs, d.data.date.isSome) {last : MessageDictionary}
    (hlast : (initialMessages docs).getLast? = some last) {d : MessageDocument} (hd : d ∈ docs)
    (hlegit : d.data.legit) : d.dateString ≤ last.dateString := by
  rcases List.mem_append.mp ((lastEleven_append_older h).mem_iff.mpr hd) with hd | hd
  · exact (ascending_sorted_filter _).le_getLast hlast (mem_initialMessages.mpr ⟨d, hd, rfl, hlegit⟩)
  · obtain ⟨m, hm, rfl, -⟩ := mem_initialMessages.mp (List.mem_of_getLast? hlast)
    exact dateString_older_le hd hm

theorem lastEleven_legit_of_length (h : (initialMessages docs).length > 10) :
    (lastElevenMessages docs).length = 11 ∧ ∀ d ∈ lastElevenMessages docs, d.data.legit := by
  have hperm := (initialMessages_perm docs).length_eq
  have hle := List.length_filter_le (·.legit) (dictionaryFromSnapshots (lastElevenMessages docs))
  have hmap : (dictionaryFromSnapshots (lastElevenMessages docs)).length =
      (lastElevenMessages docs).length := List.length_map _
  have hwindow : (lastElevenMessages docs).length ≤ 11 := List.length_take_le _ _
  have hall := List.length_filter_eq_length_iff.mp
    (show ((dictionaryFromSnapshots (lastElevenMessages docs)).filter (·.legit)).length =
      (dictionaryFromSnapshots (lastElevenMessages docs)).length by omega)
  exact ⟨by omega, fun d hd => hall d.data (List.mem_map_of_mem hd)⟩

theorem initialMessages_length_of_legit (h : ∀ d ∈ lastElevenMessages docs, d.data.legit) :
    (initialMessages docs).length = (lastElevenMessages docs).length := by
  have hall : ∀ m ∈ dictionaryFromSnapshots (lastElevenMessages docs), m.legit := by
    intro m hm
    obtain ⟨d, hd, rfl⟩ := List.mem_map.mp hm
    exact h d hd
  rw [(initialMessages_perm docs).length_eq, List.filter_eq_self.mpr hall]
  exact List.length_map _

/-- When the window holds no bad message, the background query returns the
documents outside it, but for those that share the first loaded date. -/
theorem oldMessages_perm (h : ∀ d ∈ docs, d.data.date.isSome)
    (hlegit : ∀ d ∈ lastElevenMessages docs, d.data.legit) {first : MessageDictionary}
    (hfirst : (initialMessages docs).head? = some first) :
    (isLessThan first.dateString docs).Perm
      ((olderMessages docs).filter fun d => d.dateString < first.dateString) := by
  have hnone : (lastElevenMessages docs).filter (fun d => d.dateString < first.dateString) = [] := by
    apply List.filter_eq_nil_iff.mpr
    intro d hd
    have hmem := mem_initialMessages.mpr ⟨d, hd, rfl, hlegit d hd⟩
    have hle : first.dateString ≤ d.dateString := (ascending_sorted_filter _).head_le hfirst hmem
    simpa only [decide_eq_true_eq, not_lt] using hle
  have hperm := (lastEleven_append_older h).symm.filter fun d => d.dateString < first.dateString
  rw [List.filter_append, hnone, List.nil_append] at hperm
  rwa [isLessThan, hasDate_eq h]

/-- Nothing that was stored when the listener starts is newer than the last
loaded message. -/
theorem listenForNewChats_eq_nil (h : ∀ d ∈ docs, d.data.date.isSome)
    (hne : initialMessages docs ≠ []) : listenForNewChats (initialMessages docs) docs = [] := by
  apply List.filter_eq_nil_iff.mpr
  intro m hm hlegit
  obtain ⟨d, hd, rfl⟩ := List.mem_map.mp hm
  have hlast := List.getLast?_eq_some_getLast hne
  obtain ⟨hdate, hlt⟩ := List.mem_filter.mp hd
  rw [lastMessagesDate, hlast, decide_eq_true_eq] at hlt
  have hle := dateString_le_last h hlast (List.mem_of_mem_filter hdate) hlegit
  exact absurd hlt (not_lt.mpr hle)

theorem listenForNewChats_of_nil (h : ∀ d ∈ docs, d.data.date.isSome) :
    listenForNewChats [] docs =
      ((dictionaryFromSnapshots docs).filter (·.legit)).filter fun m => "0" < m.dateString := by
  rw [listenForNewChats, addedDocuments, isGreaterThan, hasDate_eq h, dictionaryFromSnapshots,
    dictionaryFromSnapshots, List.filter_filter, List.filter_map, List.filter_map,
    List.filter_filter]
  congr 2
  funext d
  exact Bool.and_comm ..

end Window

/-- After the initial query, the background query and the first snapshot of the
listener, every legit message is loaded or delivered, once, and nothing else is;
the loaded ones are in the order of their dates. -/
def HistoryComplete (docs : List MessageDocument) : Prop :=
  ∃ initial loadedMessages, loadMessages docs = some initial ∧
    getOldmessagesInBackground initial docs = some loadedMessages ∧
    Ascending MessageDictionary.dateString loadedMessages ∧
    (loadedMessages ++ listenForNewChats initial docs).Perm
      ((dictionaryFromSnapshots docs).filter (·.legit))

section BadMessages
variable {docs : List MessageDocument}

theorem legit_perm (h : ∀ d ∈ docs, d.data.date.isSome) :
    (initialMessages docs ++ (dictionaryFromSnapshots (olderMessages docs)).filter (·.legit)).Perm
      ((dictionaryFromSnapshots docs).filter (·.legit)) := by
  have hperm := ((lastEleven_append_older h).map MessageDocument.data).filter (·.legit)
  rw [List.map_append, List.filter_append] at hperm
  exact ((initialMessages_perm docs).append_right _).trans hperm

theorem older_lt_first (h : ∀ d ∈ docs, d.data.date.isSome)
    (hdistinct : (docs.map MessageDocument.dateString).Nodup) {first : MessageDictionary}
    (hfirst : (initialMessages docs).head? = some first) {d : MessageDocument}
    (hd : d ∈ olderMessages docs) : d.dateString < first.dateString := by
  obtain ⟨m, hm, rfl, -⟩ := mem_initialMessages.mp (List.mem_of_head? hfirst)
  have hnodup := ((lastEleven_append_older h).map MessageDocument.dateString).nodup_iff.mpr hdistinct
  rw [List.map_append, List.nodup_append] at hnodup
  have hne := hnodup.2.2 _ (List.mem_map_of_mem hm) _ (List.mem_map_of_mem hd)
  exact lt_of_le_of_ne (dateString_older_le hd hm) hne.symm

theorem historyComplete_of_full (h : ∀ d ∈ docs, d.data.date.isSome)
    (hdistinct : (docs.map MessageDocument.dateString).Nodup)
    (hlong : (initialMessages docs).length > 10) : HistoryComplete docs := by
  obtain ⟨-, hlegit⟩ := lastEleven_legit_of_length hlong
  have hne : initialMessages docs ≠ [] := by
    intro hnil
    rw [hnil] at hlong
    simp at hlong
  have hfirst := List.head?_eq_some_head hne
  have hold : (oldMessages (initialMessages docs) docs).Perm (olderMessages docs) := by
    have hperm := oldMessages_perm h hlegit hfirst
    rw [List.filter_eq_self.mpr fun d hd => decide_eq_true (older_lt_first h hdistinct hfirst hd)]
      at hperm
    rwa [oldMessages, if_pos hlong, hfirst]
  refine ⟨_, _, loadMessages_eq docs, getOldmessagesInBackground_eq _ _, ?_, ?_⟩
  · refine List.pairwise_append.mpr
      ⟨ascending_sorted_filter _, ascending_sorted_filter _, fun m hm m' hm' => ?_⟩
    obtain ⟨d, hd, rfl⟩ := List.mem_map.mp ((ascending_perm _ _).mem_iff.mp (List.mem_of_mem_filter hm))
    have hlt := older_lt_first h hdistinct hfirst (hold.mem_iff.mp hd)
    exact (le_of_lt hlt).trans ((ascending_sorted_filter _).head_le hfirst hm')
  · rw [listenForNewChats_eq_nil h hne, List.append_nil]
    have hbackground := ((ascending_perm MessageDictionary.dateString _).trans
      (hold.map MessageDocument.data)).filter (·.legit)
    exact ((hbackground.append_right _).trans List.perm_append_comm).trans (legit_perm h)

/-- With ten messages or fewer loaded, the history is complete if all the legit
messages are among them, or if none is and the listener takes them all. -/
theorem historyComplete_of_short (h : ∀ d ∈ docs, d.data.date.isSome)
    (hshort : (initialMessages docs).length ≤ 10) : HistoryComplete docs ↔
      (∀ d ∈ olderMessages docs, ¬ d.data.legit) ∨
      (initialMessages docs = [] ∧ ∀ d ∈ docs, d.data.legit → "0" < d.dateString) := by
  have hold : oldMessages (initialMessages docs) docs = [] := if_neg (by omega)
  have hbackground := getOldmessagesInBackground_eq (initialMessages docs) docs
  rw [hold] at hbackground
  have hcomplete : HistoryComplete docs ↔
      (initialMessages docs ++ listenForNewChats (initialMessages docs) docs).Perm
        ((dictionaryFromSnapshots docs).filter (·.legit)) := by
    constructor
    · rintro ⟨initial, loadedMessages, hinitial, hloaded, -, hperm⟩
      obtain rfl := Option.some.inj (hinitial.symm.trans (loadMessages_eq docs))
      obtain rfl := Option.some.inj (hloaded.symm.trans hbackground)
      exact hperm
    · intro hperm
      exact ⟨_, _, loadMessages_eq docs, hbackground, ascending_sorted_filter _, hperm⟩
  have holder : (∀ d ∈ olderMessages docs, ¬ d.data.legit) ↔
      (dictionaryFromSnapshots (olderMessages docs)).filter (·.legit) = [] := by
    rw [List.filter_eq_nil_iff, dictionaryFromSnapshots, List.forall_mem_map]
  rw [hcomplete, holder]
  by_cases hne : initialMessages docs = []
  · have hdates : (∀ m ∈ (dictionaryFromSnapshots docs).filter (·.legit), decide ("0" < m.dateString)) ↔
        ∀ d ∈ docs, d.data.legit → "0" < d.dateString := by
      simp only [dictionaryFromSnapshots, List.mem_filter, List.mem_map, decide_eq_true_eq]
      constructor
      · intro hall d hd hlegit
        exact hall d.data ⟨⟨d, hd, rfl⟩, hlegit⟩
      · rintro hall m ⟨⟨d, hd, rfl⟩, hlegit⟩
        exact hall d hd hlegit
    -- nothing is loaded, and the listener starts at "0"
    rw [hne, List.nil_append, listenForNewChats_of_nil h, filter_perm_iff, hdates]
    constructor
    · intro hall
      exact Or.inr ⟨rfl, hall⟩
    · rintro (hnone | ⟨-, hall⟩)
      · have hperm := legit_perm h
        rw [hne, hnone, List.nil_append] at hperm
        exact hdates.mp (by simp [List.nil_perm.mp hperm])
      · exact hall
  · -- the listener starts after the newest legit message and brings nothing old
    rw [listenForNewChats_eq_nil h hne, List.append_nil]
    constructor
    · intro hperm
      have hlength := (hperm.trans (legit_perm h).symm).length_eq
      rw [List.length_append] at hlength
      exact Or.inl (List.eq_nil_of_length_eq_zero (by omega))
    · rintro (hnone | ⟨hnil, -⟩)
      · have hperm := legit_perm h
        rwa [hnone, List.append_nil] at hperm
      · exact absurd hnil hne

/-- The history is complete exactly when the newest eleven documents are all
legit, or no older document is, or none of the newest is and every legit one has
a date after "0". -/
theorem historyComplete_iff (docs : List MessageDocument) (h : ∀ d ∈ docs, d.data.date.isSome)
    (hdistinct : (docs.map MessageDocument.dateString).Nodup) : HistoryComplete docs ↔
      (∀ d ∈ lastElevenMessages docs, d.data.legit) ∨
      (∀ d ∈ olderMessages docs, ¬ d.data.legit) ∨
      ((∀ d ∈ lastElevenMessages docs, ¬ d.data.legit) ∧
        ∀ d ∈ docs, d.data.legit → "0" < d.dateString) := by
  have hnil : initialMessages docs = [] ↔ ∀ d ∈ lastElevenMessages docs, ¬ d.data.legit := by
    rw [List.eq_nil_iff_forall_not_mem]
    constructor
    · intro hall d hd hlegit
      exact hall d.data (mem_initialMessages.mpr ⟨d, hd, rfl, hlegit⟩)
    · intro hall m hm
      obtain ⟨d, hd, rfl, hlegit⟩ := mem_initialMessages.mp hm
      exact hall d hd hlegit
  rcases Nat.lt_or_ge 10 (initialMessages docs).length with hlong | hshort
  · constructor
    · intro _
      exact Or.inl (lastEleven_legit_of_length hlong).2
    · intro _
      exact historyComplete_of_full h hdistinct hlong
  · rw [historyComplete_of_short h hshort, hnil]
    constructor
    · exact Or.inr
    · rintro (hlegit | hrest)
      · have hlength := initialMessages_length_of_legit hlegit
        have hempty : olderMessages docs = [] :=
          older_eq_nil (show (lastElevenMessages docs).length < 11 by omega)
        exact Or.inl (by simp [hempty])
      · exact hrest

/-- A document of Bob with the keys that `OutgoingMessages` sets. -/
def storedMessage (uuid type date : String) : MessageDocument :=
  ⟨uuid, { message := some "text", senderId := some "bob", senderName := some "Bob",
           date := some date, status := some kDELIVERED, type := some type,
           messageId := some uuid }⟩

def elevenTexts : List MessageDocument :=
  [storedMessage "m0" kTEXT "20190204120000", storedMessage "m1" kTEXT "20190204120001",
    storedMessage "m2" kTEXT "20190204120002", storedMessage "m3" kTEXT "20190204120003",
    storedMessage "m4" kTEXT "20190204120004", storedMessage "m5" kTEXT "20190204120005",
    storedMessage "m6" kTEXT "20190204120006", storedMessage "m7" kTEXT "20190204120007",
    storedMessage "m8" kTEXT "20190204120008", storedMessage "m9" kTEXT "20190204120009",
    storedMessage "m10" kTEXT "20190204120010"]

theorem historyComplete_older_sticker :
    HistoryComplete (storedMessage "a" kTEXT "20190204115958" ::
      storedMessage "b" "sticker" "20190204115959" :: elevenTexts) :=
  (historyComplete_iff (storedMessage "a" kTEXT "20190204115958" ::
    storedMessage "b" "sticker" "20190204115959" :: elevenTexts) (by decide)
    (by decide +kernel)).mpr (Or.inl (by decide +kernel))

/-- Eleven texts and, after them, one message of an unknown type. -/
def elevenTextsAndSticker : List MessageDocument :=
  elevenTexts ++ [storedMessage "s" "sticker" "20190204120011"]

/-- The unknown message takes a place in the window: ten texts are loaded, and the
oldest text is never fetched. -/
theorem historyComplete_fails_sticker :
    (∀ d ∈ elevenTextsAndSticker, d.data.date.isSome) ∧
    (elevenTextsAndSticker.map MessageDocument.dateString).Nodup ∧
    ¬ HistoryComplete elevenTextsAndSticker := by
  refine ⟨by decide, by decide +kernel, ?_⟩
  rw [historyComplete_of_short (by decide +kernel) (by decide +kernel)]
  decide +kernel

end BadMessages

/-- The initial query, the background query (sent when the first `k` later
documents have arrived) and the listener together show every document once. -/
def QueriesPartition (docs arrivals : List MessageDocument) (k : ℕ) : Prop :=
  ∃ loaded, loadMessages docs = some loaded ∧
    (lastElevenMessages docs ++ (oldMessages loaded (docs ++ arrivals.take k) ++
      addedDocuments loaded (docs ++ arrivals))).Perm (docs ++ arrivals)

section EqualDates
variable {docs arrivals : List MessageDocument}

theorem zero_lt_of_isDateString {s : String} (h : IsDateString s) : "0" < s := by
  obtain ⟨hlength, hdigit⟩ := h
  rw [String.lt_iff]
  match hs : s.toList with
  | [] => simp [hs] at hlength
  | [c] => simp [hs] at hlength
  | c :: c' :: cs =>
    have hc : c.isDigit := hdigit c (by simp [hs])
    have hle : '0' ≤ c := by
      simp only [Char.isDigit, Bool.and_eq_true, decide_eq_true_eq] at hc
      exact hc.1
    show ['0'] < c :: c' :: cs
    rw [List.cons_lt_cons_iff]
    rcases hle.lt_or_eq with hlt | heq
    · exact Or.inl hlt
    · exact Or.inr ⟨heq, List.nil_lt_cons _ _⟩

theorem isSome_of_isDateString {d : MessageDocument} (h : IsDateString d.dateString) :
    d.data.date.isSome := by
  cases hd : d.data.date with
  | none =>
    have hempty : d.dateString = "" := by
      rw [MessageDocument.dateString, MessageDictionary.dateString, hd, Option.getD_none]
    have hlength := h.1
    rw [hempty] at hlength
    exact absurd hlength (by decide)
  | some date => rfl

theorem isLessThan_append (date : String) (docs arrivals : List MessageDocument) :
    isLessThan date (docs ++ arrivals) = isLessThan date docs ++ isLessThan date arrivals := by
  simp only [isLessThan, hasDate, List.filter_append]

theorem isGreaterThan_append (date : String) (docs arrivals : List MessageDocument) :
    isGreaterThan date (docs ++ arrivals) =
      isGreaterThan date docs ++ isGreaterThan date arrivals := by
  simp only [isGreaterThan, hasDate, List.filter_append]

/-- The background query returns the older documents with a date before the first
loaded one, whatever has arrived in the meantime. -/
theorem oldMessages_arrivals (h : ∀ d ∈ docs, d.data.date.isSome)
    (hlegit : ∀ d ∈ lastElevenMessages docs, d.data.legit)
    (harrivals : ∀ a ∈ arrivals, ∀ m ∈ lastElevenMessages docs, m.dateString ≤ a.dateString)
    {first : MessageDictionary} (hfirst : (initialMessages docs).head? = some first) :
    (oldMessages (initialMessages docs) (docs ++ arrivals)).Perm
      ((olderMessages docs).filter fun d => d.dateString < first.dateString) := by
  have hlength := initialMessages_length_of_legit hlegit
  unfold oldMessages
  split_ifs with hlong
  · have hnone : isLessThan first.dateString arrivals = [] := by
      apply List.filter_eq_nil_iff.mpr
      intro a ha
      obtain ⟨m, hm, rfl, -⟩ := mem_initialMessages.mp (List.mem_of_head? hfirst)
      rw [decide_eq_true_eq]
      exact not_lt.mpr (harrivals a (List.mem_of_mem_filter ha) m hm)
    rw [hfirst]
    show (isLessThan first.dateString (docs ++ arrivals)).Perm _
    rw [isLessThan_append, hnone, List.append_nil]
    exact oldMessages_perm h hlegit hfirst
  · have hempty : olderMessages docs = [] :=
      older_eq_nil (show (lastElevenMessages docs).length < 11 by omega)
    rw [hempty, List.filter_nil]

theorem addedDocuments_arrivals (h : ∀ d ∈ docs, d.data.date.isSome)
    (hlegit : ∀ d ∈ docs, d.data.legit) (ha : ∀ a ∈ arrivals, a.data.date.isSome)
    {last : MessageDictionary} (hlast : (initialMessages docs).getLast? = some last) :
    addedDocuments (initialMessages docs) (docs ++ arrivals) =
      arrivals.filter fun a => last.dateString < a.dateString := by
  have hnone : isGreaterThan last.dateString docs = [] := by
    apply List.filter_eq_nil_iff.mpr
    intro d hd
    have hmem := List.mem_of_mem_filter hd
    have hle := dateString_le_last h hlast hmem (hlegit d hmem)
    simpa only [decide_eq_true_eq, not_lt] using hle
  rw [addedDocuments, lastMessagesDate, hlast]
  show isGreaterThan last.dateString (docs ++ arrivals) = _
  rw [isGreaterThan_append, hnone, List.nil_append, isGreaterThan, hasDate_eq ha]

theorem older_lt_first_iff (hlegit : ∀ d ∈ lastElevenMessages docs, d.data.legit)
    {first : MessageDictionary} (hfirst : (initialMessages docs).head? = some first) :
    (∀ d ∈ olderMessages docs, decide (d.dateString < first.dateString)) ↔
      ∀ d ∈ olderMessages docs, ∀ m ∈ lastElevenMessages docs, d.dateString ≠ m.dateString := by
  constructor
  · intro hlt d hd m hm
    have hmem := mem_initialMessages.mpr ⟨m, hm, rfl, hlegit m hm⟩
    have hle := (ascending_sorted_filter _).head_le hfirst hmem
    exact ne_of_lt ((of_decide_eq_true (hlt d hd)).trans_le hle)
  · intro hne d hd
    obtain ⟨m, hm, rfl, -⟩ := mem_initialMessages.mp (List.mem_of_head? hfirst)
    exact decide_eq_true (lt_of_le_of_ne (dateString_older_le hd hm) (hne d hd m hm))

theorem last_lt_arrivals_iff (hlegit : ∀ d ∈ lastElevenMessages docs, d.data.legit)
    (harrivals : ∀ a ∈ arrivals, ∀ m ∈ lastElevenMessages docs, m.dateString ≤ a.dateString)
    {last : MessageDictionary} (hlast : (initialMessages docs).getLast? = some last) :
    (∀ a ∈ arrivals, decide (last.dateString < a.dateString)) ↔
      ∀ a ∈ arrivals, ∀ m ∈ lastElevenMessages docs, a.dateString ≠ m.dateString := by
  constructor
  · intro hlt a ha m hm
    have hmem := mem_initialMessages.mpr ⟨m, hm, rfl, hlegit m hm⟩
    have hle := (ascending_sorted_filter _).le_getLast hlast hmem
    exact (ne_of_lt (hle.trans_lt (of_decide_eq_true (hlt a ha)))).symm
  · intro hne a ha
    obtain ⟨m, hm, rfl, -⟩ := mem_initialMessages.mp (List.mem_of_getLast? hlast)
    exact decide_eq_true (lt_of_le_of_ne (harrivals a ha m hm) (hne a ha m hm).symm)

theorem queriesPartition_unfold {k : ℕ} : QueriesPartition docs arrivals k ↔
    (lastElevenMessages docs ++ (oldMessages (initialMessages docs) (docs ++ arrivals.take k) ++
      addedDocuments (initialMessages docs) (docs ++ arrivals))).Perm (docs ++ arrivals) := by
  simp only [QueriesPartition, loadMessages_eq, Option.some.injEq, exists_eq_left']

theorem queriesPartition_of_empty {k : ℕ} (hdate : ∀ a ∈ arrivals, IsDateString a.dateString) :
    QueriesPartition [] arrivals k := by
  have hsome : ∀ a ∈ arrivals, a.data.date.isSome := fun a ha => isSome_of_isDateString (hdate a ha)
  have hadded : addedDocuments [] arrivals = arrivals := by
    rw [addedDocuments, isGreaterThan, hasDate_eq hsome]
    apply List.filter_eq_self.mpr
    intro a ha
    exact decide_eq_true (zero_lt_of_isDateString (hdate a ha))
  rw [queriesPartition_unfold, List.nil_append, List.nil_append]
  show (addedDocuments [] arrivals).Perm arrivals
  rw [hadded]

theorem queriesPartition_perm_iff {k : ℕ} (h : ∀ d ∈ docs, d.data.date.isSome)
    {old added : List MessageDocument}
    (hold : (oldMessages (initialMessages docs) (docs ++ arrivals.take k)).Perm old)
    (hadded : addedDocuments (initialMessages docs) (docs ++ arrivals) = added) :
    QueriesPartition docs arrivals k ↔ (old ++ added).Perm (olderMessages docs ++ arrivals) := by
  have hleft := (hold.append_right added).append_left (lastElevenMessages docs)
  have hright : (lastElevenMessages docs ++ (olderMessages docs ++ arrivals)).Perm
      (docs ++ arrivals) := by
    rw [← List.append_assoc]
    exact (lastEleven_append_older h).append_right _
  rw [queriesPartition_unfold, hadded]
  constructor
  · intro hp
    exact (List.perm_append_left_iff _).mp ((hleft.symm.trans hp).trans hright.symm)
  · intro hp
    exact (hleft.trans (hp.append_left _)).trans hright

/-- Every document is shown once exactly when no older document shares its date
with one of the newest eleven and no later document arrives with the date of a
loaded one. -/
theorem queriesPartition_iff (docs arrivals : List MessageDocument) (k : ℕ)
    (hlegit : ∀ d ∈ docs ++ arrivals, d.data.legit)
    (hdate : ∀ d ∈ docs ++ arrivals, IsDateString d.dateString)
    (harrivals : ∀ a ∈ arrivals, ∀ m ∈ lastElevenMessages docs, m.dateString ≤ a.dateString) :
    QueriesPartition docs arrivals k ↔
      (∀ d ∈ olderMessages docs, ∀ m ∈ lastElevenMessages docs, d.dateString ≠ m.dateString) ∧
      (∀ a ∈ arrivals, ∀ m ∈ lastElevenMessages docs, a.dateString ≠ m.dateString) := by
  have hlegit' : ∀ d ∈ docs, d.data.legit := fun d hd => hlegit d (List.mem_append_left _ hd)
  have hsome : ∀ d ∈ docs, d.data.date.isSome := fun d hd =>
    isSome_of_isDateString (hdate d (List.mem_append_left _ hd))
  have hsomeA : ∀ a ∈ arrivals, a.data.date.isSome := fun a ha =>
    isSome_of_isDateString (hdate a (List.mem_append_right _ ha))
  have hperm := lastEleven_append_older hsome
  have hwindow : ∀ d ∈ lastElevenMessages docs, d.data.legit := fun d hd =>
    hlegit' d (hperm.subset (List.mem_append_left _ hd))
  by_cases hne : initialMessages docs = []
  · -- all documents are legit, so nothing is stored
    have hempty : lastElevenMessages docs = [] := by
      have hlength := initialMessages_length_of_legit hwindow
      rw [hne, List.length_nil] at hlength
      exact List.eq_nil_of_length_eq_zero hlength.symm
    have holder : olderMessages docs = [] :=
      older_eq_nil (show (lastElevenMessages docs).length < 11 by rw [hempty]; decide)
    obtain rfl : docs = [] := by
      rw [hempty, holder] at hperm
      exact List.nil_perm.mp hperm
    have hpartition := queriesPartition_of_empty (k := k) fun a ha =>
      hdate a (List.mem_append_right _ ha)
    simp [hpartition, hempty]
  · have hfirst := List.head?_eq_some_head hne
    have hlast := List.getLast?_eq_some_getLast hne
    have hold := oldMessages_arrivals hsome hwindow
      (fun a ha => harrivals a (List.mem_of_mem_take (i := k) ha)) hfirst
    have hadded := addedDocuments_arrivals hsome hlegit' hsomeA hlast
    rw [queriesPartition_perm_iff hsome hold hadded, filter_append_filter_perm_iff,
      older_lt_first_iff hwindow hfirst, last_lt_arrivals_iff hwindow harrivals hlast]

/-- After eleven loaded texts: two older ones, and two replies, one of which arrives before
the background query is answered. -/
theorem queriesPartition_next_second :
    QueriesPartition (storedMessage "a" kTEXT "20190204115958" ::
        storedMessage "b" kTEXT "20190204115959" :: elevenTexts)
      [storedMessage "c" kTEXT "20190204120011", storedMessage "d" kTEXT "20190204120012"] 1 := by
  refine (queriesPartition_iff (storedMessage "a" kTEXT "20190204115958" ::
    storedMessage "b" kTEXT "20190204115959" :: elevenTexts)
    [storedMessage "c" kTEXT "20190204120011", storedMessage "d" kTEXT "20190204120012"] 1
    (by decide) ?_ (by decide +kernel)).mpr (by decide +kernel)
  intro d hd
  simp only [elevenTexts, List.cons_append, List.nil_append, List.mem_cons, List.not_mem_nil,
    or_false] at hd
  rcases hd with rfl | rfl | rfl | rfl | rfl | rfl | rfl | rfl | rfl | rfl | rfl | rfl | rfl |
    rfl | rfl <;> exact ⟨by decide, List.all_eq_true.mp (by decide)⟩

/-- A reply in the second of the newest loaded message is in none of the three
results, and so is the twelfth of twelve messages of one second. -/
theorem queriesPartition_fails_same_second :
    (∀ d ∈ [storedMessage "text" kTEXT "20190204120000"] ++
        [storedMessage "reply" kTEXT "20190204120000"],
      d.data.legit ∧ IsDateString d.dateString) ∧
    (∀ m ∈ lastElevenMessages [storedMessage "text" kTEXT "20190204120000"],
      m.dateString ≤ "20190204120000") ∧
    ¬ QueriesPartition [storedMessage "text" kTEXT "20190204120000"]
        [storedMessage "reply" kTEXT "20190204120000"] 0 ∧
    ¬ QueriesPartition ((List.range 12).map fun i =>
        storedMessage (Nat.repr i) kTEXT "20190204120000") [] 0 := by
  refine ⟨?_, by decide, ?_, ?_⟩
  · intro d hd
    simp only [List.cons_append, List.nil_append, List.mem_cons, List.not_mem_nil, or_false] at hd
    rcases hd with rfl | rfl <;> exact ⟨by decide, by decide, List.all_eq_true.mp (by decide)⟩
  · rw [queriesPartition_unfold]
    decide +kernel
  · rw [queriesPartition_unfold]
    decide +kernel

end EqualDates

end LiChat
