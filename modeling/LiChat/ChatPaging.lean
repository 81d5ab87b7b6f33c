import LiChat.ChatLoading
import LiChat.General.Runs

/-!
# Pages of the chat screen

The screen shows the last ten loaded messages and a header for the earlier ones.
Tapping the header shows ten more.  The documents older than the first query's
are loaded by a background query that may complete at any time, or fail.
-/

namespace LiChat

/-- The runtime errors of Swift that can happen here. -/
inductive Trap where
  | range
  | index
  | unwrap
  deriving DecidableEq, Repr

/-- A forced unwrap or a forced cast. -/
def unwrap {α : Type} : Option α → Except Trap α
  | some a => .ok a
  | none => .error .unwrap

/-- The members of `ChatViewController` that loading and paging use.
`updatedMessages` lists the ids that were marked as read. -/
structure ChatState (JSQMessage : Type) where
  maxMessageNumber : ℤ := 0
  minMessageNumber : ℤ := 0
  loadOld : Bool := false
  loadedMessagesCount : ℤ := 0
  messages : List JSQMessage := []
  objectMessages : List MessageDictionary := []
  loadedMessages : List MessageDictionary := []
  allPictureMessages : List String := []
  showLoadEarlierMessagesHeader : Bool := false
  initialLoadComplete : Bool := false
  updatedMessages : List String := []

/-- The parameters of a screen: the user and `IncomingMessage.createMessage`. -/
structure ChatScreen (JSQMessage : Type) where
  currentId : Uid
  createMessage : MessageDictionary → Option JSQMessage

namespace ChatState
variable {JSQMessage : Type}

/-- `loadedMessages[i]` -/
def loadedMessage (s : ChatState JSQMessage) (i : ℤ) : Except Trap MessageDictionary :=
  if i < 0 then .error .index
  else
    match s.loadedMessages[i.toNat]? with
    | some messageDictionary => .ok messageDictionary
    | none => .error .index

def getPictureMessage (s : ChatState JSQMessage) : Except Trap (ChatState JSQMessage) := do
  let allPictureMessages ← s.loadedMessages.foldlM (fun links message => do
    let type ← unwrap message.type
    if type = kPICTURE then
      let link ← unwrap message.picture
      return links ++ [link]
    else return links) []
  return { s with allPictureMessages := allPictureMessages }

end ChatState

/-- `lower ..< upper` -/
def halfOpenRange (lower upper : ℤ) : Except Trap (List ℤ) :=
  if upper < lower then .error .range
  else .ok ((List.range (upper - lower).toNat).map fun i : ℕ => lower + i)

/-- `lower ... upper` -/
def closedRange (lower upper : ℤ) : Except Trap (List ℤ) :=
  if upper < lower then .error .range
  else .ok ((List.range (upper - lower + 1).toNat).map fun i : ℕ => lower + i)

namespace ChatScreen
variable {JSQMessage : Type} (vc : ChatScreen JSQMessage)

def updateIncoming (messageDictionary : MessageDictionary) (s : ChatState JSQMessage) :
    Except Trap (ChatState JSQMessage) := do
  let senderId ← unwrap messageDictionary.senderId
  if senderId ≠ vc.currentId then
    let messageId ← unwrap messageDictionary.messageId
    return { s with updatedMessages := s.updatedMessages ++ [messageId] }
  else return s

/-- A message that cannot be created is left out. -/
def insertInitialLoadMessages (messageDictionary : MessageDictionary)
    (s : ChatState JSQMessage) : Except Trap (ChatState JSQMessage) := do
  let s ← vc.updateIncoming messageDictionary s
  match vc.createMessage messageDictionary with
  | some message =>
    return { s with
      objectMessages := s.objectMessages ++ [messageDictionary]
      messages := s.messages ++ [message] }
  | none => return s

def insertNewMessage (messageDictionary : MessageDictionary)
    (s : ChatState JSQMessage) : Except Trap (ChatState JSQMessage) := do
  let message ← unwrap (vc.createMessage messageDictionary)
  return { s with
    objectMessages := messageDictionary :: s.objectMessages
    messages := message :: s.messages }

/-- One round of the loops of `insertMessages` and `loadMoreMessages`. -/
def showMessage (insert : MessageDictionary → ChatState JSQMessage →
    Except Trap (ChatState JSQMessage)) (s : ChatState JSQMessage) (i : ℤ) :
    Except Trap (ChatState JSQMessage) := do
  let messageDictionary ← s.loadedMessage i
  let s ← insert messageDictionary s
  return { s with loadedMessagesCount := s.loadedMessagesCount + 1 }

def insertMessages (s : ChatState JSQMessage) : Except Trap (ChatState JSQMessage) := do
  let maxMessageNumber := s.loadedMessages.length - s.loadedMessagesCount
  let minMessageNumber := maxMessageNumber - kNUMBEROFMESSAGES
  let minMessageNumber := if minMessageNumber < 0 then 0 else minMessageNumber
  let s := { s with maxMessageNumber := maxMessageNumber, minMessageNumber := minMessageNumber }
  let range ← halfOpenRange minMessageNumber maxMessageNumber
  let s ← range.foldlM (showMessage vc.insertInitialLoadMessages) s
  return { s with
    showLoadEarlierMessagesHeader := s.loadedMessagesCount ≠ s.loadedMessages.length }

def loadMoreMessages (_maxNumber minNumber : ℤ) (s : ChatState JSQMessage) :
    Except Trap (ChatState JSQMessage) := do
  let maxMessageNumber := if s.loadOld then minNumber - 1 else s.maxMessageNumber
  let minMessageNumber :=
    if s.loadOld then maxMessageNumber - kNUMBEROFMESSAGES else s.minMessageNumber
  let minMessageNumber := if minMessageNumber < 0 then 0 else minMessageNumber
  let s := { s with maxMessageNumber := maxMessageNumber, minMessageNumber := minMessageNumber }
  let range ← closedRange minMessageNumber maxMessageNumber
  let s ← range.reverse.foldlM (showMessage vc.insertNewMessage) s
  return { s with
    loadOld := true
    showLoadEarlierMessagesHeader := s.loadedMessagesCount ≠ s.loadedMessages.length }

end ChatScreen

inductive Background where
  | notIssued
  | issued
  | completed
  | failed
  deriving DecidableEq, Repr

structure OpenChat (JSQMessage : Type) where
  chat : ChatState JSQMessage
  background : Background

inductive ChatEvent where
  | didTapLoadEarlierMessagesButton
  | backgroundSnapshot (snapshot : Option (List MessageDocument))
  | added (item : MessageDictionary)

namespace ChatScreen
variable {JSQMessage : Type} (vc : ChatScreen JSQMessage)

/-- The callback of the initial query. -/
def openChat (docs : List MessageDocument) : Except Trap (OpenChat JSQMessage) := do
  let loadedMessages ← unwrap (loadMessages docs)
  let s ← vc.insertMessages { loadedMessages := loadedMessages }
  let s ← ({ s with initialLoadComplete := true } : ChatState JSQMessage).getPictureMessage
  return ⟨s, if s.loadedMessages.length > 10 then .issued else .notIssued⟩

/-- The callback of the background query. -/
def oldMessagesLoaded (docs : List MessageDocument) (s : ChatState JSQMessage) :
    Except Trap (ChatState JSQMessage) := do
  let older ← unwrap (removeBadMessages (sortedArray (dictionaryFromSnapshots docs)))
  let s ← ({ s with loadedMessages := older ++ s.loadedMessages } : ChatState JSQMessage).getPictureMessage
  let maxMessageNumber := s.loadedMessages.length - s.loadedMessagesCount - 1
  return { s with
    maxMessageNumber := maxMessageNumber
    minMessageNumber := maxMessageNumber - kNUMBEROFMESSAGES }

def addNewPictureMessageLink (item : MessageDictionary) (s : ChatState JSQMessage) :
    Except Trap (ChatState JSQMessage) := do
  if item.type = some kPICTURE then
    let link ← unwrap item.picture
    return { s with allPictureMessages := s.allPictureMessages ++ [link] }
  else return s

def addedMessage (item : MessageDictionary) (s : ChatState JSQMessage) :
    Except Trap (ChatState JSQMessage) :=
  if item.legit then
    addNewPictureMessageLink item s >>= vc.insertInitialLoadMessages item
  else .ok s

/-- One event; after a trap there is none. -/
def step : Except Trap (OpenChat JSQMessage) → ChatEvent →
    Option (Except Trap (OpenChat JSQMessage))
  | .error _, _ => none
  | .ok s, .didTapLoadEarlierMessagesButton =>
    if s.chat.showLoadEarlierMessagesHeader then
      some ((vc.loadMoreMessages s.chat.maxMessageNumber s.chat.minMessageNumber s.chat).map
        fun chat => { s with chat := chat })
    else none
  | .ok s, .backgroundSnapshot snapshot =>
    if s.background = .issued then
      match snapshot with
      | some docs => some ((oldMessagesLoaded docs s.chat).map fun chat => ⟨chat, .completed⟩)
      | none => some (.ok { s with background := .failed })
    else none
  | .ok s, .added item =>
    some ((vc.addedMessage item s.chat).map fun chat => { s with chat := chat })

end ChatScreen

theorem bind_eq_ok {σ τ : Type} {r : Except Trap σ} {f : σ → Except Trap τ} {t : τ}
    (h : r >>= f = .ok t) : ∃ s, r = .ok s ∧ f s = .ok t := by
  cases r with
  | ok s => exact ⟨s, rfl, h⟩
  | error e => cases h

theorem map_eq_ok {σ τ : Type} {r : Except Trap σ} {f : σ → τ} {t : τ}
    (h : r.map f = .ok t) : ∃ s, r = .ok s ∧ f s = t := by
  cases r with
  | ok s => exact ⟨s, rfl, Except.ok.inj h⟩
  | error e => cases h

theorem unwrap_eq_ok {α : Type} {o : Option α} {a : α} (h : unwrap o = .ok a) : o = some a := by
  cases o with
  | some b => rw [Except.ok.inj h]
  | none => cases h

theorem loadedMessage_mem {JSQMessage : Type} {s : ChatState JSQMessage} {i : ℤ}
    {m : MessageDictionary} (h : s.loadedMessage i = .ok m) : m ∈ s.loadedMessages := by
  unfold ChatState.loadedMessage at h
  split_ifs at h
  cases hm : s.loadedMessages[i.toNat]? with
  | none =>
    rw [hm] at h
    cases h
  | some m' =>
    rw [hm] at h
    rw [← Except.ok.inj h]
    exact List.mem_of_getElem? hm

theorem showMessages_keeps {JSQMessage : Type} {insert : MessageDictionary → ChatState JSQMessage →
      Except Trap (ChatState JSQMessage)} {P : ChatState JSQMessage → Prop}
    (hcount : ∀ s n, P s → P { s with loadedMessagesCount := n })
    (hinsert : ∀ m s s', m ∈ s.loadedMessages → insert m s = .ok s' → P s → P s')
    {range : List ℤ} {s s' : ChatState JSQMessage}
    (h : range.foldlM (ChatScreen.showMessage insert) s = .ok s') (hs : P s) : P s' := by
  induction range generalizing s with
  | nil =>
    obtain rfl := Except.ok.inj h
    exact hs
  | cons i range ih =>
    rw [List.foldlM_cons] at h
    obtain ⟨s₁, hround, hrest⟩ := bind_eq_ok h
    obtain ⟨m, hm, hround⟩ := bind_eq_ok hround
    obtain ⟨s₂, hs₂, hround⟩ := bind_eq_ok hround
    obtain rfl := Except.ok.inj hround
    exact ih hrest (hcount _ _ (hinsert m s s₂ (loadedMessage_mem hm) hs₂ hs))

/-- The computation ends in a state with `P`, or in a forced unwrap. -/
def Outcome {σ : Type} (P : σ → Prop) : Except Trap σ → Prop
  | .ok s => P s
  | .error t => t = .unwrap

namespace Outcome
variable {σ τ : Type} {P : σ → Prop} {Q : τ → Prop}

theorem bind {r : Except Trap σ} {f : σ → Except Trap τ} (hr : Outcome P r)
    (hf : ∀ s, P s → Outcome Q (f s)) : Outcome Q (r >>= f) := by
  cases r with
  | ok s => exact hf s hr
  | error t => exact hr

theorem map {r : Except Trap σ} {f : σ → τ} (hr : Outcome P r) (hf : ∀ s, P s → Q (f s)) :
    Outcome Q (r.map f) := by
  cases r with
  | ok s => exact hf s hr
  | error t => exact hr

theorem mono {r : Except Trap σ} {P' : σ → Prop} (hr : Outcome P r) (h : ∀ {s}, P s → P' s) :
    Outcome P' r := by
  cases r with
  | ok s => exact h hr
  | error t => exact hr

theorem unwrap {o : Option σ} : Outcome (fun _ => True) (LiChat.unwrap o) := by
  cases o with
  | none => exact rfl
  | some a => exact trivial

end Outcome

/-- `s'` shows the same pages as `s`. -/
structure SamePages {JSQMessage : Type} (s s' : ChatState JSQMessage) : Prop where
  max : s'.maxMessageNumber = s.maxMessageNumber
  min : s'.minMessageNumber = s.minMessageNumber
  loadOld : s'.loadOld = s.loadOld
  loaded : s'.loadedMessages = s.loadedMessages
  count : s'.loadedMessagesCount = s.loadedMessagesCount
  header : s'.showLoadEarlierMessagesHeader = s.showLoadEarlierMessagesHeader

theorem SamePages.trans {JSQMessage : Type} {s s' s'' : ChatState JSQMessage}
    (h : SamePages s s') (h' : SamePages s' s'') : SamePages s s'' :=
  ⟨h'.max.trans h.max, h'.min.trans h.min, h'.loadOld.trans h.loadOld, h'.loaded.trans h.loaded,
    h'.count.trans h.count, h'.header.trans h.header⟩

namespace ChatScreen
variable {JSQMessage : Type} (vc : ChatScreen JSQMessage)

theorem getPictureMessage_outcome (s : ChatState JSQMessage) :
    Outcome (SamePages s) s.getPictureMessage := by
  have hloop : ∀ (l : List MessageDictionary) (links : List String),
      Outcome (fun _ => True) (l.foldlM (fun links message => do
        let type ← unwrap message.type
        if type = kPICTURE then
          let link ← unwrap message.picture
          return links ++ [link]
        else return links) links : Except Trap (List String)) := by
    intro l
    induction l with
    | nil => exact fun _ => trivial
    | cons message l ih =>
      intro links
      rw [List.foldlM_cons]
      apply Outcome.bind (P := fun _ => True) _ fun links _ => ih links
      apply Outcome.unwrap.bind
      intro type _
      split_ifs
      · exact Outcome.unwrap.bind fun _ _ => trivial
      · trivial
  exact (hloop s.loadedMessages []).bind fun _ _ => ⟨rfl, rfl, rfl, rfl, rfl, rfl⟩

theorem updateIncoming_outcome (m : MessageDictionary) (s : ChatState JSQMessage) :
    Outcome (SamePages s) (vc.updateIncoming m s) := by
  apply Outcome.unwrap.bind
  intro senderId _
  split_ifs
  · exact Outcome.unwrap.bind fun _ _ => ⟨rfl, rfl, rfl, rfl, rfl, rfl⟩
  · exact ⟨rfl, rfl, rfl, rfl, rfl, rfl⟩

theorem insertInitialLoadMessages_outcome (m : MessageDictionary) (s : ChatState JSQMessage) :
    Outcome (SamePages s) (vc.insertInitialLoadMessages m s) := by
  apply (vc.updateIncoming_outcome m s).bind
  intro s' h
  cases vc.createMessage m with
  | none => exact h
  | some message => exact ⟨h.max, h.min, h.loadOld, h.loaded, h.count, h.header⟩

theorem insertNewMessage_outcome (m : MessageDictionary) (s : ChatState JSQMessage) :
    Outcome (SamePages s) (vc.insertNewMessage m s) :=
  Outcome.unwrap.bind fun _ _ => ⟨rfl, rfl, rfl, rfl, rfl, rfl⟩

theorem addNewPictureMessageLink_outcome (item : MessageDictionary) (s : ChatState JSQMessage) :
    Outcome (SamePages s) (addNewPictureMessageLink item s) := by
  unfold addNewPictureMessageLink
  split_ifs
  · exact Outcome.unwrap.bind fun _ _ => ⟨rfl, rfl, rfl, rfl, rfl, rfl⟩
  · exact ⟨rfl, rfl, rfl, rfl, rfl, rfl⟩

theorem addedMessage_outcome (item : MessageDictionary) (s : ChatState JSQMessage) :
    Outcome (SamePages s) (vc.addedMessage item s) := by
  unfold addedMessage
  split_ifs
  · apply (addNewPictureMessageLink_outcome item s).bind
    intro s' h
    exact (vc.insertInitialLoadMessages_outcome item s').mono h.trans
  · exact ⟨rfl, rfl, rfl, rfl, rfl, rfl⟩

theorem loadedMessage_outcome {s : ChatState JSQMessage} {i : ℤ} (h0 : 0 ≤ i)
    (hi : i < s.loadedMessages.length) : ∃ m, s.loadedMessage i = .ok m := by
  have hlt : i.toNat < s.loadedMessages.length := by omega
  refine ⟨s.loadedMessages[i.toNat], ?_⟩
  rw [ChatState.loadedMessage, if_neg (by omega), List.getElem?_eq_getElem hlt]

theorem showMessages_outcome {insert : MessageDictionary → ChatState JSQMessage →
    Except Trap (ChatState JSQMessage)} (hinsert : ∀ m s, Outcome (SamePages s) (insert m s))
    (range : List ℤ) (s : ChatState JSQMessage)
    (hrange : ∀ i ∈ range, 0 ≤ i ∧ i < s.loadedMessages.length) :
    Outcome (SamePages { s with loadedMessagesCount := s.loadedMessagesCount + range.length })
      (range.foldlM (showMessage insert) s) := by
  induction range generalizing s with
  | nil => exact ⟨rfl, rfl, rfl, rfl, by simp, rfl⟩
  | cons i range ih =>
    obtain ⟨h0, hi⟩ := hrange i List.mem_cons_self
    obtain ⟨m, hm⟩ := loadedMessage_outcome h0 hi
    rw [List.foldlM_cons]
    have hround : Outcome (SamePages { s with loadedMessagesCount := s.loadedMessagesCount + 1 })
        (showMessage insert s i) := by
      unfold showMessage
      rw [hm]
      apply (hinsert m s).bind
      intro s' h
      exact ⟨h.max, h.min, h.loadOld, h.loaded, congrArg (· + 1) h.count, h.header⟩
    apply hround.bind
    intro s' h
    have hrest := ih s' fun j hj => h.loaded ▸ hrange j (List.mem_cons_of_mem _ hj)
    apply hrest.mono
    intro s'' h'
    refine ⟨h'.max.trans h.max, h'.min.trans h.min, h'.loadOld.trans h.loadOld,
      h'.loaded.trans h.loaded, ?_, h'.header.trans h.header⟩
    have hcount := h.count
    have hcount' := h'.count
    simp only [List.length_cons] at hcount hcount' ⊢
    omega

/-- The pages before a background query has completed: the newest ten of eleven
messages are shown. -/
structure FirstPage (s : ChatState JSQMessage) : Prop where
  loaded : s.loadedMessages.length = 11
  max : s.maxMessageNumber = 11
  min : s.minMessageNumber = 1
  loadOld : s.loadOld = false

/-- The older messages are there, and the next page ends at the last of them. -/
structure NextPage (s : ChatState JSQMessage) : Prop where
  loadOld : s.loadOld = false
  max : 0 ≤ s.maxMessageNumber
  loaded : (s.loadedMessages.length : ℤ) = s.maxMessageNumber + 11
  min : s.minMessageNumber = s.maxMessageNumber - 10
  count : s.loadedMessagesCount = 10

/-- The messages from `minMessageNumber` on are shown. -/
structure LaterPage (s : ChatState JSQMessage) : Prop where
  loadOld : s.loadOld = true
  min : 0 ≤ s.minMessageNumber
  loaded : s.minMessageNumber ≤ s.loadedMessages.length
  count : s.loadedMessagesCount = s.loadedMessages.length - s.minMessageNumber
  header : s.showLoadEarlierMessagesHeader = true → 0 < s.minMessageNumber

def Pages (s : OpenChat JSQMessage) : Prop :=
  match s.background with
  | .notIssued => s.chat.showLoadEarlierMessagesHeader = false
  | .issued => FirstPage s.chat ∧ s.chat.loadedMessagesCount = 10
  | .failed => FirstPage s.chat
  | .completed => NextPage s.chat ∨ LaterPage s.chat

theorem halfOpenRange_ok {lower upper : ℤ} (h : lower ≤ upper) :
    ∃ range, halfOpenRange lower upper = .ok range ∧ (range.length : ℤ) = upper - lower ∧
      ∀ i ∈ range, lower ≤ i ∧ i < upper := by
  refine ⟨_, if_neg (by omega), by simp; omega, ?_⟩
  intro i hi
  obtain ⟨j, hj, rfl⟩ := List.mem_map.mp hi
  have hlt := List.mem_range.mp hj
  omega

theorem closedRange_ok {lower upper : ℤ} (h : lower ≤ upper) :
    ∃ range, closedRange lower upper = .ok range ∧ (range.length : ℤ) = upper - lower + 1 ∧
      ∀ i ∈ range, lower ≤ i ∧ i ≤ upper := by
  refine ⟨_, if_neg (by omega), by simp; omega, ?_⟩
  intro i hi
  obtain ⟨j, hj, rfl⟩ := List.mem_map.mp hi
  have hlt := List.mem_range.mp hj
  omega

theorem insertMessages_outcome {s : ChatState JSQMessage} (hcount : s.loadedMessagesCount = 0)
    (hold : s.loadOld = false) (hlength : s.loadedMessages.length ≤ 11) :
    Outcome (fun s' => s'.loadedMessages = s.loadedMessages ∧
      (s.loadedMessages.length ≤ 10 → s'.showLoadEarlierMessagesHeader = false) ∧
      (s.loadedMessages.length = 11 → FirstPage s' ∧ s'.loadedMessagesCount = 10))
      (vc.insertMessages s) := by
  obtain ⟨max, hmax⟩ : ∃ max : ℤ, s.loadedMessages.length - s.loadedMessagesCount = max := ⟨_, rfl⟩
  obtain ⟨min, hmin⟩ : ∃ min : ℤ,
    (if max - kNUMBEROFMESSAGES < 0 then 0 else max - kNUMBEROFMESSAGES) = min := ⟨_, rfl⟩
  have hten : kNUMBEROFMESSAGES = 10 := rfl
  -- `max` is the number of messages, the exclusive end of the range
  have hbounds : 0 ≤ min ∧ min ≤ max ∧ (max ≤ 10 → min = 0) ∧ (max = 11 → min = 1) := by
    rw [← hmin]
    split_ifs <;> omega
  obtain ⟨range, hrange, hlen, hmem⟩ := halfOpenRange_ok hbounds.2.1
  have hloop := showMessages_outcome (vc.insertInitialLoadMessages_outcome) range
    { s with maxMessageNumber := max, minMessageNumber := min }
    (fun i hi => ⟨by have := hmem i hi; omega, by have := hmem i hi; simp only; omega⟩)
  unfold insertMessages
  simp only [hmax, hmin]
  rw [hrange]
  apply hloop.bind
  intro s' h
  have hloaded := h.loaded
  have hcount' := h.count
  simp only at hloaded hcount'
  refine ⟨hloaded, ?_, ?_⟩
  · intro hshort
    have hall : s'.loadedMessagesCount = s'.loadedMessages.length := by
      rw [hcount', hloaded, hcount, hlen]
      omega
    simp [hall]
  · intro hfull
    refine ⟨⟨by rw [← hfull, ← hloaded], ?_, ?_, h.loadOld.trans hold⟩, ?_⟩
    · exact h.max.trans (by simp only; omega)
    · exact h.min.trans (hbounds.2.2.2 (by omega))
    · have hten := hbounds.2.2.2 (by omega)
      exact hcount'.trans (by omega)

/-- Before the background query has completed, the next page ends one behind the
last loaded message. -/
theorem loadMoreMessages_firstPage {s : ChatState JSQMessage} (h : FirstPage s) (maxNumber : ℤ) :
    vc.loadMoreMessages maxNumber s.minMessageNumber s = .error .index := by
  have hindex : ∀ s' : ChatState JSQMessage, s'.loadedMessages = s.loadedMessages →
      s'.loadedMessage 11 = .error .index := by
    intro s' hs'
    have hnone : s'.loadedMessages[11]? = none := by
      rw [hs', List.getElem?_eq_none_iff, h.loaded]
    rw [ChatState.loadedMessage, if_neg (by decide)]
    show (match s'.loadedMessages[11]? with | some m => _ | none => _) = _
    rw [hnone]
  -- the loop runs downwards and begins with the number of messages as an index
  have hloop : ∀ s' : ChatState JSQMessage, s'.loadedMessages = s.loadedMessages →
      [1, 2, 3, 4, 5, 6, 7, 8, 9, 10, 11].reverse.foldlM (showMessage vc.insertNewMessage) s' =
        .error .index := by
    intro s' hs'
    show (11 :: [10, 9, 8, 7, 6, 5, 4, 3, 2, 1] : List ℤ).foldlM _ s' = _
    rw [List.foldlM_cons, showMessage, hindex s' hs']
    rfl
  have hrange : closedRange 1 11 = .ok [1, 2, 3, 4, 5, 6, 7, 8, 9, 10, 11] := rfl
  simp only [loadMoreMessages, h.loadOld, h.max, h.min]
  show (closedRange 1 11 >>= _) = _
  rw [hrange]
  show (List.foldlM (m := Except Trap) _ _ _ >>= _) = _
  rw [hloop]
  · rfl
  · rfl

theorem loadMoreMessages_outcome {s : ChatState JSQMessage} {maxNumber minNumber : ℤ} (max min : ℤ)
    (hmax : (if s.loadOld then minNumber - 1 else s.maxMessageNumber) = max)
    (hmin : (if (if s.loadOld then max - kNUMBEROFMESSAGES else s.minMessageNumber) < 0 then 0
      else if s.loadOld then max - kNUMBEROFMESSAGES else s.minMessageNumber) = min)
    (h0 : 0 ≤ min) (hle : min ≤ max) (hlt : max < s.loadedMessages.length)
    (hcount : s.loadedMessagesCount = s.loadedMessages.length - (max + 1)) :
    Outcome LaterPage (vc.loadMoreMessages maxNumber minNumber s) := by
  obtain ⟨range, hrange, hlen, hmem⟩ := closedRange_ok hle
  have hloop := showMessages_outcome vc.insertNewMessage_outcome range.reverse
    { s with maxMessageNumber := max, minMessageNumber := min }
    (fun i hi => by
      have := hmem i (List.mem_reverse.mp hi)
      exact ⟨by omega, by simp only; omega⟩)
  unfold loadMoreMessages
  simp only [hmax, hmin]
  rw [hrange]
  apply hloop.bind
  intro s' h
  have hloaded := h.loaded
  have hcount' := h.count
  have hmin' := h.min
  simp only [List.length_reverse] at hloaded hcount' hmin'
  refine ⟨rfl, by simp only [hmin']; exact h0, ?_, ?_, ?_⟩
  · simp only [hmin', hloaded]
    omega
  · simp only [hmin', hloaded, hcount']
    omega
  · intro hheader
    have hne : s'.loadedMessagesCount ≠ s'.loadedMessages.length := by simpa using hheader
    rw [hcount', hloaded] at hne
    simp only [hmin']
    omega

theorem loadMoreMessages_later {s : ChatState JSQMessage} (maxNumber : ℤ)
    (h : NextPage s ∨ LaterPage s) (hheader : s.showLoadEarlierMessagesHeader = true) :
    Outcome LaterPage (vc.loadMoreMessages maxNumber s.minMessageNumber s) := by
  have hten : kNUMBEROFMESSAGES = 10 := rfl
  rcases h with h | h
  · obtain ⟨hold, hmax, hloaded, hmin, hcount⟩ := h
    apply vc.loadMoreMessages_outcome s.maxMessageNumber
      (if s.minMessageNumber < 0 then 0 else s.minMessageNumber) (by simp [hold]) (by simp [hold])
    · split_ifs <;> omega
    · split_ifs <;> omega
    · omega
    · omega
  · obtain ⟨hold, hmin, hloaded, hcount, hpos⟩ := h
    have hmin' := hpos hheader
    apply vc.loadMoreMessages_outcome (s.minMessageNumber - 1)
      (if s.minMessageNumber - 1 - kNUMBEROFMESSAGES < 0 then 0
        else s.minMessageNumber - 1 - kNUMBEROFMESSAGES) (by simp [hold]) (by simp [hold])
    · split_ifs <;> omega
    · split_ifs <;> omega
    · omega
    · omega

def PagesOrTrap : Except Trap (OpenChat JSQMessage) → Prop
  | .ok s => Pages s
  | .error _ => True

/-- No range was formed the wrong way round and no index was out of bounds. -/
def Safe (r : Except Trap (OpenChat JSQMessage)) : Prop := r ≠ .error .range ∧ r ≠ .error .index

theorem safe_of_outcome {P : OpenChat JSQMessage → Prop} {r : Except Trap (OpenChat JSQMessage)}
    (h : Outcome P r) : Safe r := by
  cases r with
  | ok s => exact ⟨nofun, nofun⟩
  | error t =>
    obtain rfl : t = .unwrap := h
    exact ⟨nofun, nofun⟩

theorem pages_of_outcome {r : Except Trap (OpenChat JSQMessage)} (h : Outcome Pages r) :
    PagesOrTrap r := by
  cases r with
  | ok s => exact h
  | error t => trivial

/-- The header is tapped only after the background query has completed. -/
def TapAfterBackground : Except Trap (OpenChat JSQMessage) → ChatEvent → Prop
  | .ok s, .didTapLoadEarlierMessagesButton => s.background = .completed
  | _, _ => True

theorem openChat_outcome (docs : List MessageDocument) : Outcome Pages (vc.openChat docs) := by
  have hlength : (initialMessages docs).length ≤ 11 := by
    rw [(initialMessages_perm docs).length_eq]
    apply (List.length_filter_le _ _).trans
    rw [dictionaryFromSnapshots, List.length_map]
    exact List.length_take_le _ _
  unfold openChat
  rw [loadMessages_eq]
  apply (vc.insertMessages_outcome (s := { loadedMessages := initialMessages docs }) rfl rfl
    hlength).bind
  rintro s ⟨hloaded, hshort, hfull⟩
  apply (getPictureMessage_outcome _).bind
  intro s' h
  have hloaded' := h.loaded.trans hloaded
  have hheader := h.header
  simp only at hloaded hloaded' hheader
  rw [hloaded']
  split_ifs with hlong
  · obtain ⟨hfirst, hcount⟩ := hfull (by simp only; omega)
    have hlen : s'.loadedMessages.length = 11 := by rw [hloaded']; omega
    exact ⟨⟨hlen, h.max.trans hfirst.max, h.min.trans hfirst.min, h.loadOld.trans hfirst.loadOld⟩,
      h.count.trans hcount⟩
  · exact hheader.trans (hshort (by simp only; omega))

theorem oldMessagesLoaded_outcome (docs : List MessageDocument) {s : ChatState JSQMessage}
    (h : FirstPage s) (hcount : s.loadedMessagesCount = 10) :
    Outcome NextPage (oldMessagesLoaded docs s) := by
  unfold oldMessagesLoaded
  rw [removeBadMessages_eq_filter]
  apply (getPictureMessage_outcome _).bind
  intro s' h'
  have hlength : (s'.loadedMessages.length : ℤ) =
      ((sortedArray (dictionaryFromSnapshots docs)).filter (·.legit)).length + 11 := by
    rw [h'.loaded, List.length_append, h.loaded]
    push_cast
    rfl
  have hcount' := h'.count
  simp only at hcount'
  refine ⟨h'.loadOld.trans h.loadOld, ?_, ?_, rfl, hcount'.trans hcount⟩ <;>
    simp only [hlength, hcount', hcount] <;> omega

theorem pages_of_samePages {s : OpenChat JSQMessage} {chat : ChatState JSQMessage}
    (h : SamePages s.chat chat) (hs : Pages s) : Pages { s with chat := chat } := by
  obtain ⟨s, background⟩ := s
  cases background with
  | notIssued => exact h.header.trans hs
  | issued =>
    obtain ⟨⟨hloaded, hmax, hmin, hold⟩, hcount⟩ := hs
    exact ⟨⟨by rw [h.loaded, hloaded], h.max.trans hmax, h.min.trans hmin, h.loadOld.trans hold⟩,
      h.count.trans hcount⟩
  | failed =>
    obtain ⟨hloaded, hmax, hmin, hold⟩ := hs
    exact ⟨by rw [h.loaded, hloaded], h.max.trans hmax, h.min.trans hmin, h.loadOld.trans hold⟩
  | completed =>
    rcases hs with hs | hs
    · obtain ⟨hold, hmax, hloaded, hmin, hcount⟩ := hs
      exact Or.inl ⟨h.loadOld.trans hold, by rw [h.max]; exact hmax,
        by rw [h.loaded, h.max]; exact hloaded, by rw [h.min, h.max]; exact hmin,
        h.count.trans hcount⟩
    · obtain ⟨hold, hmin, hloaded, hcount, hheader⟩ := hs
      exact Or.inr ⟨h.loadOld.trans hold, by rw [h.min]; exact hmin,
        by rw [h.min, h.loaded]; exact hloaded, by rw [h.count, h.loaded, h.min]; exact hcount,
        by rw [h.header, h.min]; exact hheader⟩

/-- One event: the pages stay in step, and a tap is safe exactly when the
background query has completed. -/
theorem step_pages {r r' : Except Trap (OpenChat JSQMessage)} {e : ChatEvent}
    (hr : PagesOrTrap r) (h : vc.step r e = some r') :
    PagesOrTrap r' ∧ (Safe r' ↔ TapAfterBackground r e) := by
  cases r with
  | error t => simp [step] at h
  | ok s =>
    cases e with
    | didTapLoadEarlierMessagesButton =>
      simp only [step, Option.ite_none_right_eq_some, Option.some.injEq] at h
      obtain ⟨hheader, rfl⟩ := h
      -- while the query is under way and after it has failed, the tap traps
      have hfirst : FirstPage s.chat → ¬ s.background = .completed →
          PagesOrTrap ((vc.loadMoreMessages s.chat.maxMessageNumber s.chat.minMessageNumber
            s.chat).map fun chat => { s with chat := chat }) ∧
          (Safe ((vc.loadMoreMessages s.chat.maxMessageNumber s.chat.minMessageNumber
            s.chat).map fun chat => { s with chat := chat }) ↔ s.background = .completed) := by
        intro hpage hback
        rw [vc.loadMoreMessages_firstPage hpage]
        exact ⟨trivial, fun hsafe => absurd rfl hsafe.2, fun hc => absurd hc hback⟩
      cases hback : s.background with
      | notIssued =>
        simp only [PagesOrTrap, Pages, hback] at hr
        exact absurd hheader (by simp [hr])
      | issued =>
        simp only [PagesOrTrap, Pages, hback] at hr
        rw [← hback]
        exact hfirst hr.1 (by simp [hback])
      | failed =>
        simp only [PagesOrTrap, Pages, hback] at hr
        rw [← hback]
        exact hfirst hr (by simp [hback])
      | completed =>
        simp only [PagesOrTrap, Pages, hback] at hr
        have hout : Outcome Pages ((vc.loadMoreMessages s.chat.maxMessageNumber
            s.chat.minMessageNumber s.chat).map fun chat => (⟨chat, .completed⟩ : OpenChat _)) :=
          (vc.loadMoreMessages_later s.chat.maxMessageNumber hr hheader).map fun _ h => Or.inr h
        exact ⟨pages_of_outcome hout, fun _ => hback, fun _ => safe_of_outcome hout⟩
    | backgroundSnapshot snapshot =>
      simp only [step, Option.ite_none_right_eq_some] at h
      obtain ⟨hissued, h⟩ := h
      simp only [PagesOrTrap, Pages, hissued] at hr
      have hout : Outcome Pages r' := by
        cases snapshot with
        | none =>
          obtain rfl := Option.some.inj h
          exact hr.1
        | some docs =>
          obtain rfl := Option.some.inj h
          exact (oldMessagesLoaded_outcome docs hr.1 hr.2).map fun _ hnext => Or.inl hnext
      exact ⟨pages_of_outcome hout, fun _ => trivial, fun _ => safe_of_outcome hout⟩
    | added item =>
      simp only [step, Option.some.injEq] at h
      subst h
      have hout : Outcome Pages ((vc.addedMessage item s.chat).map fun chat =>
          { s with chat := chat }) :=
        (vc.addedMessage_outcome item s.chat).map fun chat hchat => pages_of_samePages hchat hr
      exact ⟨pages_of_outcome hout, fun _ => trivial, fun _ => safe_of_outcome hout⟩

/-- However taps, the completion of the background query and new messages follow
one another: no tap forms a wrong range or reads out of bounds exactly when every
tap comes after the background query has completed. -/
theorem loadMoreMessages_safe_iff (vc : ChatScreen JSQMessage) (docs : List MessageDocument)
    (events : List ChatEvent) :
    Runs.Always vc.step Safe (vc.openChat docs) events ↔
      Runs.Guarded vc.step TapAfterBackground (vc.openChat docs) events := by
  have hopen := vc.openChat_outcome docs
  apply Runs.always_iff_guarded (I := PagesOrTrap)
  · intro r e r' hr _ h
    exact vc.step_pages hr h
  · exact pages_of_outcome hopen
  · exact safe_of_outcome hopen

def aliceChat : ChatScreen String := ⟨"alice", MessageDictionary.message⟩

/-- A tap before the background query answers reads `loadedMessages[11]`. -/
theorem loadMoreMessages_fails_early_tap :
    Runs.exec aliceChat.step (aliceChat.openChat elevenTexts) [.didTapLoadEarlierMessagesButton] =
      some (.error .index) ∧
    ¬ Runs.Always aliceChat.step Safe (aliceChat.openChat elevenTexts)
      [.didTapLoadEarlierMessagesButton] := by
  have hrun : Runs.exec aliceChat.step (aliceChat.openChat elevenTexts)
      [.didTapLoadEarlierMessagesButton] = some (.error .index) := by
    rfl
  refine ⟨hrun, fun h => ?_⟩
  exact (h.last hrun).2 rfl

end ChatScreen

end LiChat
