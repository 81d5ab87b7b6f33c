import LiChat.IncomingMessages
import Mathlib.Data.List.DropRight

/-!
# What the chat screen shows

With documents of the app nothing traps but a tap that comes too early, and each function
of the screen is known by what it does to the messages that are shown.
-/

namespace LiChat
open Windows ChatScreen

namespace ChatScreen
variable {JSQMessage : Type} (vc : ChatScreen JSQMessage)

section Inserts
variable {vc}

theorem updateIncoming_ok {m : MessageDictionary} (h : Showable vc m)
    (s : ChatState JSQMessage) : ∃ s', vc.updateIncoming m s = .ok s' ∧
      s'.objectMessages = s.objectMessages ∧ s'.messages = s.messages := by
  obtain ⟨senderId, hsender⟩ := h.senderId
  obtain ⟨messageId, hmessage⟩ := h.messageId
  by_cases hown : senderId ≠ vc.currentId
  · refine ⟨{ s with updatedMessages := s.updatedMessages ++ [messageId] }, ?_, rfl, rfl⟩
    simp only [updateIncoming, hsender, hmessage, unwrap, bind, Except.bind, if_pos hown]
    rfl
  · refine ⟨s, ?_, rfl, rfl⟩
    simp only [updateIncoming, hsender, unwrap, bind, Except.bind, if_neg hown]
    rfl

theorem insertInitialLoadMessages_ok {m : MessageDictionary} (h : Showable vc m)
    (s : ChatState JSQMessage) : ∃ s', vc.insertInitialLoadMessages m s = .ok s' ∧
      s'.objectMessages = s.objectMessages ++ [m] := by
  obtain ⟨message, hmessage⟩ := h.created
  obtain ⟨s', hs', hobject, -⟩ := updateIncoming_ok h s
  refine ⟨{ s' with
    objectMessages := s'.objectMessages ++ [m]
    messages := s'.messages ++ [message] }, ?_, by rw [hobject]⟩
  simp only [insertInitialLoadMessages, hs', hmessage, bind, Except.bind]
  rfl

theorem insertNewMessage_ok {m : MessageDictionary} (h : Showable vc m)
    (s : ChatState JSQMessage) : ∃ s', vc.insertNewMessage m s = .ok s' ∧
      s'.objectMessages = m :: s.objectMessages := by
  obtain ⟨message, hmessage⟩ := h.created
  refine ⟨{ s with
    objectMessages := m :: s.objectMessages
    messages := message :: s.messages }, ?_, rfl⟩
  simp only [insertNewMessage, hmessage, unwrap, bind, Except.bind]
  rfl

theorem addNewPictureMessageLink_ok {item : MessageDictionary} (h : Showable vc item)
    (s : ChatState JSQMessage) : ∃ s', addNewPictureMessageLink item s = .ok s' ∧
      s'.objectMessages = s.objectMessages := by
  by_cases htype : item.type = some kPICTURE
  · obtain ⟨link, hlink⟩ := h.picture htype
    refine ⟨{ s with allPictureMessages := s.allPictureMessages ++ [link] }, ?_, rfl⟩
    simp only [addNewPictureMessageLink, if_pos htype, hlink, unwrap, bind, Except.bind]
    rfl
  · refine ⟨s, ?_, rfl⟩
    rw [addNewPictureMessageLink, if_neg htype]
    rfl

theorem addedMessage_ok {item : MessageDictionary} (h : item.legit → Showable vc item)
    (s : ChatState JSQMessage) : ∃ s', vc.addedMessage item s = .ok s' ∧
      s'.objectMessages = s.objectMessages ++ if item.legit then [item] else [] := by
  unfold addedMessage
  split_ifs with hlegit
  · obtain ⟨s₁, hs₁, hobject₁⟩ := addNewPictureMessageLink_ok (h hlegit) s
    obtain ⟨s₂, hs₂, hobject₂⟩ := insertInitialLoadMessages_ok (h hlegit) s₁
    refine ⟨s₂, ?_, by rw [hobject₂, hobject₁]⟩
    rw [hs₁]
    exact hs₂
  · exact ⟨s, rfl, (List.append_nil _).symm⟩

theorem getPictureMessage_ok {s : ChatState JSQMessage}
    (h : ∀ m ∈ s.loadedMessages, Showable vc m) :
    ∃ s', s.getPictureMessage = .ok s' ∧ s'.objectMessages = s.objectMessages := by
  have hloop : ∀ (l : List MessageDictionary) (links : List String),
      (∀ m ∈ l, Showable vc m) → ∃ links', (l.foldlM (fun links message => do
        let type ← unwrap message.type
        if type = kPICTURE then
          let link ← unwrap message.picture
          return links ++ [link]
        else return links) links : Except Trap (List String)) = .ok links' := by
    intro l
    induction l with
    | nil => exact fun links _ => ⟨links, rfl⟩
    | cons message l ih =>
      intro links hl
      obtain ⟨hmessage, hl⟩ := List.forall_mem_cons.mp hl
      obtain ⟨type, htype⟩ := hmessage.type
      rw [List.foldlM_cons]
      by_cases hpicture : type = kPICTURE
      · obtain ⟨link, hlink⟩ := hmessage.picture (hpicture ▸ htype)
        obtain ⟨links', hlinks'⟩ := ih (links ++ [link]) hl
        refine ⟨links', ?_⟩
        rw [← hlinks']
        simp only [htype, hlink, unwrap, bind, Except.bind, if_pos hpicture]
        rfl
      · obtain ⟨links', hlinks'⟩ := ih links hl
        refine ⟨links', ?_⟩
        rw [← hlinks']
        simp only [htype, unwrap, bind, Except.bind, if_neg hpicture]
        rfl
  obtain ⟨links, hlinks⟩ := hloop s.loadedMessages [] h
  refine ⟨{ s with allPictureMessages := links }, ?_, rfl⟩
  rw [ChatState.getPictureMessage, hlinks]
  rfl

end Inserts

theorem loadedMessage_eq {s : ChatState JSQMessage} {i : ℕ} {m : MessageDictionary}
    (h : s.loadedMessages[i]? = some m) : s.loadedMessage i = .ok m := by
  rw [ChatState.loadedMessage, if_neg (by omega), Int.toNat_natCast, h]

theorem forall₂_page (s : ChatState JSQMessage) {lower k : ℕ}
    (h : lower + k ≤ s.loadedMessages.length) :
    List.Forall₂ (fun i m => s.loadedMessage i = .ok m)
      ((List.range k).map fun i : ℕ => (lower : ℤ) + i) ((s.loadedMessages.drop lower).take k) := by
  rw [List.forall₂_iff_get]
  refine ⟨by simp; omega, fun i hi hi' => ?_⟩
  have hik : i < k := by simpa using hi
  have hlt : lower + i < s.loadedMessages.length := by omega
  simp only [List.get_eq_getElem, List.getElem_map, List.getElem_range, List.getElem_take,
    List.getElem_drop]
  exact loadedMessage_eq (i := lower + i) (List.getElem?_eq_getElem hlt)

end ChatScreen

/-- The last eleven of the messages that are not shown yet. -/
def ChatState.nextPage {JSQMessage : Type} (s : ChatState JSQMessage) : List MessageDictionary :=
  (s.loadedMessages.take (s.loadedMessages.length - s.loadedMessagesCount.toNat)).rtake 11

theorem ChatState.mem_of_mem_nextPage {JSQMessage : Type} {s : ChatState JSQMessage}
    {m : MessageDictionary} (h : m ∈ s.nextPage) : m ∈ s.loadedMessages :=
  List.mem_of_mem_take (List.mem_of_mem_drop h)

namespace ChatScreen
variable {JSQMessage : Type} {vc : ChatScreen JSQMessage}

theorem showMessages_ok {insert : MessageDictionary → ChatState JSQMessage →
      Except Trap (ChatState JSQMessage)}
    (place : List MessageDictionary → MessageDictionary → List MessageDictionary)
    (hpages : ∀ m s, Outcome (SamePages s) (insert m s))
    (hinsert : ∀ m s, Showable vc m → ∃ s', insert m s = .ok s' ∧
      s'.objectMessages = place s.objectMessages m)
    {range : List ℤ} {page : List MessageDictionary} {s : ChatState JSQMessage}
    (hpage : List.Forall₂ (fun i m => s.loadedMessage i = .ok m) range page)
    (hshow : ∀ m ∈ page, Showable vc m) :
    ∃ s', range.foldlM (showMessage insert) s = .ok s' ∧
      SamePages { s with loadedMessagesCount := s.loadedMessagesCount + range.length } s' ∧
      s'.objectMessages = page.foldl place s.objectMessages := by
  induction range generalizing page s with
  | nil =>
    obtain rfl := List.forall₂_nil_left_iff.mp hpage
    exact ⟨s, rfl, ⟨rfl, rfl, rfl, rfl, by simp, rfl⟩, rfl⟩
  | cons i range ih =>
    obtain ⟨m, page, hm, hrest, rfl⟩ := List.forall₂_cons_left_iff.mp hpage
    obtain ⟨hshowm, hshow⟩ := List.forall_mem_cons.mp hshow
    obtain ⟨s₁, hs₁, hobject₁⟩ := hinsert m s hshowm
    have hsame : SamePages s s₁ := by
      have hout := hpages m s
      rwa [hs₁] at hout
    have hround : showMessage insert s i =
        .ok { s₁ with loadedMessagesCount := s₁.loadedMessagesCount + 1 } := by
      rw [showMessage, hm]
      show (insert m s >>= _) = _
      rw [hs₁]
      rfl
    have hpage₁ : List.Forall₂ (fun i m => ChatState.loadedMessage
        { s₁ with loadedMessagesCount := s₁.loadedMessagesCount + 1 } i = .ok m) range page := by
      apply hrest.imp
      intro j m' hj
      simpa only [ChatState.loadedMessage, hsame.loaded] using hj
    obtain ⟨s', hs', hsame', hobject'⟩ := ih hpage₁ hshow
    refine ⟨s', ?_, ?_, ?_⟩
    · rw [List.foldlM_cons, hround]
      exact hs'
    · have hcount := hsame.count
      have hcount' := hsame'.count
      refine ⟨hsame'.max.trans hsame.max, hsame'.min.trans hsame.min,
        hsame'.loadOld.trans hsame.loadOld, hsame'.loaded.trans hsame.loaded, ?_,
        hsame'.header.trans hsame.header⟩
      simp only [List.length_cons] at hcount' ⊢
      push_cast
      omega
    · rw [hobject', List.foldl_cons, hobject₁]

theorem insertMessages_ok {s : ChatState JSQMessage} (hcount : s.loadedMessagesCount = 0)
    (hobject : s.objectMessages = []) (hshow : ∀ m ∈ s.loadedMessages, Showable vc m) :
    ∃ s', vc.insertMessages s = .ok s' ∧ s'.loadedMessages = s.loadedMessages ∧
      s'.loadedMessagesCount = (min s.loadedMessages.length 10 : ℕ) ∧
      s'.objectMessages = s.loadedMessages.rtake 10 ∧
      s'.showLoadEarlierMessagesHeader =
        decide (s'.loadedMessagesCount ≠ s'.loadedMessages.length) := by
  obtain ⟨n, hn⟩ : ∃ n, s.loadedMessages.length = n := ⟨_, rfl⟩
  have hmax : (n : ℤ) - s.loadedMessagesCount = n := by omega
  have hmin : (if (n : ℤ) - kNUMBEROFMESSAGES < 0 then 0 else (n : ℤ) - kNUMBEROFMESSAGES) =
      (n - 10 : ℕ) := by
    have hten : kNUMBEROFMESSAGES = 10 := rfl
    split_ifs <;> omega
  have hrange : halfOpenRange (n - 10 : ℕ) n =
      .ok ((List.range (n - (n - 10))).map fun i : ℕ => ((n - 10 : ℕ) : ℤ) + i) := by
    rw [halfOpenRange, if_neg (by omega)]
    congr 3
    omega
  have hpage := forall₂_page s (show n - 10 + (n - (n - 10)) ≤ s.loadedMessages.length by omega)
  -- the half-open range has the indices of the last ten messages
  have htake : (s.loadedMessages.drop (n - 10)).take (n - (n - 10)) = s.loadedMessages.rtake 10 := by
    rw [List.take_of_length_le (by rw [List.length_drop, hn]), List.rtake, hn]
  rw [htake] at hpage
  obtain ⟨s', hs', hsame, hshown⟩ := showMessages_ok
    (fun shown m => shown ++ [m])
    (s := { s with maxMessageNumber := n, minMessageNumber := (n - 10 : ℕ) })
    vc.insertInitialLoadMessages_outcome (fun m s h => insertInitialLoadMessages_ok h s) hpage
    fun m hm => hshow m (List.mem_of_mem_drop hm)
  refine ⟨{ s' with showLoadEarlierMessagesHeader :=
    s'.loadedMessagesCount ≠ s'.loadedMessages.length }, ?_, hsame.loaded, ?_, ?_, rfl⟩
  · unfold insertMessages
    simp only [hn, hmax, hmin]
    rw [hrange]
    show (List.foldlM (m := Except Trap) _ _ _ >>= _) = _
    rw [hs']
    rfl
  · rw [hsame.count]
    simp only [hcount, List.length_map, List.length_range]
    omega
  · rw [hshown]
    simp [hobject, ← List.flatMap_def]

/-- The next page ends before the messages that are shown and has at most eleven. -/
structure NextBounds (s : ChatState JSQMessage) (minNumber : ℤ) (count : ℕ) : Prop where
  max : (if s.loadOld then minNumber - 1 else s.maxMessageNumber) =
    s.loadedMessages.length - count - 1
  min : (if s.loadOld then (s.loadedMessages.length - count - 1 : ℤ) - kNUMBEROFMESSAGES
    else s.minMessageNumber) = s.loadedMessages.length - count - 11

theorem nextBounds {s : ChatState JSQMessage} {count : ℕ} (h : NextPage s ∨ LaterPage s)
    (hcount : s.loadedMessagesCount = count) : NextBounds s s.minMessageNumber count := by
  have hten : kNUMBEROFMESSAGES = 10 := rfl
  rcases h with ⟨hold, hmax, hloaded, hmin, hten'⟩ | ⟨hold, hmin, hloaded, hlater, -⟩
  · constructor
    · rw [if_neg (by simp [hold])]
      omega
    · rw [if_neg (by simp [hold])]
      omega
  · constructor
    · rw [if_pos hold]
      omega
    · rw [if_pos hold]
      omega

theorem exists_count {s : ChatState JSQMessage} (h : NextPage s ∨ LaterPage s)
    (hheader : s.showLoadEarlierMessagesHeader = true) :
    ∃ count : ℕ, s.loadedMessagesCount = count ∧ count < s.loadedMessages.length := by
  rcases h with ⟨-, hmax, hloaded, -, hten⟩ | ⟨-, hmin, hloaded, hcount, hlater⟩
  · exact ⟨10, hten, by omega⟩
  · have hpos := hlater hheader
    exact ⟨(s.loadedMessages.length - s.minMessageNumber).toNat, by omega, by omega⟩

theorem rtake_take_append_rtake (l : List MessageDictionary) (c k : ℕ) :
    (l.take (l.length - c)).rtake k ++ l.rtake c = l.rtake (c + k) := by
  have htake : (l.take (l.length - c)).rtake k =
      (l.drop (l.length - (c + k))).take (l.length - c - (l.length - (c + k))) := by
    rw [List.rtake, List.drop_take, List.length_take]
    congr 2 <;> omega
  have hdrop : l.rtake c =
      (l.drop (l.length - (c + k))).drop (l.length - c - (l.length - (c + k))) := by
    rw [List.drop_drop, List.rtake]
    congr 1
    omega
  rw [htake, hdrop, List.take_append_drop, List.rtake]

theorem loadMoreMessages_ok {s : ChatState JSQMessage} {minNumber : ℤ} {count : ℕ}
    (maxNumber : ℤ) (hcount : s.loadedMessagesCount = count)
    (hlt : count < s.loadedMessages.length) (hbounds : NextBounds s minNumber count)
    (hshow : ∀ m ∈ s.loadedMessages, Showable vc m) :
    ∃ s', vc.loadMoreMessages maxNumber minNumber s = .ok s' ∧
      s'.loadedMessages = s.loadedMessages ∧
      s'.loadedMessagesCount = (min s.loadedMessages.length (count + 11) : ℕ) ∧
      s'.objectMessages = s.nextPage ++ s.objectMessages ∧
      s'.showLoadEarlierMessagesHeader =
        decide (s'.loadedMessagesCount ≠ s'.loadedMessages.length) := by
  obtain ⟨n, hn⟩ : ∃ n, s.loadedMessages.length = n := ⟨_, rfl⟩
  obtain ⟨hmax, hmin⟩ := hbounds
  rw [hn] at hmax hmin hlt
  have hclamp : (if (n - count - 11 : ℤ) < 0 then 0 else (n - count - 11 : ℤ)) =
      (n - (count + 11) : ℕ) := by
    split_ifs <;> omega
  have hrange : closedRange (n - (count + 11) : ℕ) (n - count - 1) =
      .ok ((List.range (n - count - (n - (count + 11)))).map
        fun i : ℕ => ((n - (count + 11) : ℕ) : ℤ) + i) := by
    rw [closedRange, if_neg (by omega)]
    congr 3
    omega
  have hpage := forall₂_page s (show n - (count + 11) + (n - count - (n - (count + 11))) ≤
    s.loadedMessages.length by omega)
  -- the indices of the closed range are those of the next page
  have htake : (s.loadedMessages.drop (n - (count + 11))).take (n - count - (n - (count + 11))) =
      s.nextPage := by
    rw [ChatState.nextPage, hn, hcount, Int.toNat_natCast, List.rtake, List.drop_take,
      List.length_take, hn]
    congr 2 <;> omega
  rw [htake] at hpage
  -- the loop goes backwards and inserts at the front
  obtain ⟨s', hs', hsame, hshown⟩ := showMessages_ok
    (fun shown m => m :: shown)
    (s := { s with
      maxMessageNumber := n - count - 1
      minMessageNumber := (n - (count + 11) : ℕ) })
    vc.insertNewMessage_outcome (fun m s h => insertNewMessage_ok h s)
    (List.forall₂_reverse_iff.mpr hpage)
    fun m hm => hshow m (ChatState.mem_of_mem_nextPage (List.mem_reverse.mp hm))
  refine ⟨{ s' with
    loadOld := true
    showLoadEarlierMessagesHeader := s'.loadedMessagesCount ≠ s'.loadedMessages.length }, ?_,
    hsame.loaded, ?_, ?_, rfl⟩
  · unfold loadMoreMessages
    simp only [hmax, hmin, hclamp]
    rw [hrange]
    show (List.foldlM (m := Except Trap) _ _ _ >>= _) = _
    rw [hs']
    rfl
  · rw [hsame.count]
    simp only [hcount, List.length_reverse, List.length_map, List.length_range]
    omega
  · rw [hshown]
    simp only [List.foldl_flip_cons_eq_append', List.reverse_reverse]

end ChatScreen

section Loaded
variable {docs : List MessageDocument}

theorem mem_of_mem_lastEleven {d : MessageDocument} (h : d ∈ lastElevenMessages docs) :
    d ∈ docs := by
  have hsorted := List.mem_of_mem_take h
  exact List.mem_of_mem_filter ((descending_perm _ _).mem_iff.mp hsorted)

theorem nodup_lastEleven (h : ((dictionaryFromSnapshots docs).map MessageDictionary.messageId).Nodup) :
    ((dictionaryFromSnapshots (lastElevenMessages docs)).map MessageDictionary.messageId).Nodup := by
  have hdate : ((dictionaryFromSnapshots (hasDate docs)).map MessageDictionary.messageId).Nodup :=
    h.sublist ((List.filter_sublist.map _).map _)
  have hperm := ((newest_append_older MessageDocument.key 11 (hasDate docs)).map
    MessageDocument.data).map MessageDictionary.messageId
  rw [List.map_append, List.map_append] at hperm
  exact (List.nodup_append.mp (hperm.nodup_iff.mpr hdate)).1

theorem forall_mem_legitMessages {P : MessageDictionary → Prop} :
    (∀ m ∈ legitMessages docs, P m) ↔ ∀ d ∈ docs, d.data.legit → P d.data := by
  constructor
  · intro h d hd hlegit
    exact h d.data (mem_legitMessages.mpr ⟨d, hd, rfl, hlegit⟩)
  · intro h m hm
    obtain ⟨d, hd, rfl, hlegit⟩ := mem_legitMessages.mp hm
    exact h d hd hlegit

theorem nodup_legitMessages
    (h : ((dictionaryFromSnapshots docs).map MessageDictionary.messageId).Nodup) :
    ((legitMessages docs).map MessageDictionary.messageId).Nodup := by
  have hperm := (ascending_perm MessageDictionary.dateString (dictionaryFromSnapshots docs)).map
    MessageDictionary.messageId
  exact (hperm.nodup_iff.mpr h).sublist (List.filter_sublist.map _)

theorem mem_oldMessages {loadedMessages : List MessageDictionary} {d : MessageDocument}
    (h : d ∈ oldMessages loadedMessages docs) : d ∈ docs ∧
      ∃ first, loadedMessages.head? = some first ∧ d.dateString < first.dateString := by
  unfold oldMessages at h
  split_ifs at h
  · cases hfirst : loadedMessages.head? with
    | none => simp [hfirst] at h
    | some first =>
      rw [hfirst] at h
      obtain ⟨hdate, hlt⟩ := List.mem_filter.mp h
      exact ⟨List.mem_of_mem_filter hdate, first, rfl, of_decide_eq_true hlt⟩
  · simp at h

theorem oldMessages_sublist (loadedMessages : List MessageDictionary) :
    (oldMessages loadedMessages docs).Sublist docs := by
  unfold oldMessages
  split_ifs
  · split
    · exact List.filter_sublist.trans List.filter_sublist
    · exact List.nil_sublist _
  · exact List.nil_sublist _

end Loaded

theorem ChatScreen.oldMessagesLoaded_ok {JSQMessage : Type} {vc : ChatScreen JSQMessage}
    {docs : List MessageDocument} {s : ChatState JSQMessage} (hfirst : FirstPage s)
    (hcount : s.loadedMessagesCount = 10) (hshow : ∀ m ∈ s.loadedMessages, Showable vc m)
    (hdocs : ∀ d ∈ docs, d.data.legit → Showable vc d.data) :
    ∃ s', oldMessagesLoaded docs s = .ok s' ∧ NextPage s' ∧
      s'.loadedMessages = legitMessages docs ++ s.loadedMessages ∧
      s'.loadedMessagesCount = s.loadedMessagesCount ∧ s'.objectMessages = s.objectMessages ∧
      s'.showLoadEarlierMessagesHeader = s.showLoadEarlierMessagesHeader := by
  obtain ⟨s₁, hs₁, hobject⟩ := getPictureMessage_ok
    (s := { s with loadedMessages := legitMessages docs ++ s.loadedMessages })
    (List.forall_mem_append.mpr ⟨forall_mem_legitMessages.mpr hdocs, hshow⟩)
  have hsame := getPictureMessage_outcome
    { s with loadedMessages := legitMessages docs ++ s.loadedMessages }
  rw [hs₁] at hsame
  have hnew : oldMessagesLoaded docs s = .ok { s₁ with
      maxMessageNumber := s₁.loadedMessages.length - s₁.loadedMessagesCount - 1
      minMessageNumber :=
        s₁.loadedMessages.length - s₁.loadedMessagesCount - 1 - kNUMBEROFMESSAGES } := by
    rw [oldMessagesLoaded, removeBadMessages_eq_filter]
    show (ChatState.getPictureMessage { s with loadedMessages := legitMessages docs ++ _ } >>= _) = _
    rw [hs₁]
    rfl
  have hnext := oldMessagesLoaded_outcome docs hfirst hcount
  rw [hnew] at hnext ⊢
  exact ⟨_, rfl, hnext, hsame.loaded, hsame.count, hobject, hsame.header⟩

theorem ChatScreen.openChat_ok {JSQMessage : Type} {vc : ChatScreen JSQMessage}
    {docs : List MessageDocument} (hdocs : ∀ d ∈ docs, d.data.legit → Showable vc d.data) :
    ∃ s, vc.openChat docs = .ok s ∧ Pages s ∧
      s.chat.loadedMessages = initialMessages docs ∧
      (∀ m ∈ s.chat.loadedMessages, Showable vc m) ∧
      s.chat.loadedMessagesCount = (min s.chat.loadedMessages.length 10 : ℕ) ∧
      s.chat.objectMessages = s.chat.loadedMessages.rtake 10 ∧
      s.chat.showLoadEarlierMessagesHeader =
        decide (s.chat.loadedMessagesCount ≠ s.chat.loadedMessages.length) := by
  obtain ⟨initial, hinitial⟩ : ∃ initial, initialMessages docs = initial := ⟨_, rfl⟩
  have hshowable : ∀ m ∈ initial, Showable vc m := by
    intro m hm
    obtain ⟨d, hd, rfl, hlegit⟩ := mem_initialMessages.mp (hinitial ▸ hm)
    exact hdocs d (mem_of_mem_lastEleven hd) hlegit
  obtain ⟨s₁, hs₁, hloaded₁, hcount₁, hobject₁, hheader₁⟩ :=
    insertMessages_ok (s := { loadedMessages := initial }) rfl rfl hshowable
  have hshowable₁ : ∀ m ∈ s₁.loadedMessages, Showable vc m := by
    rw [hloaded₁]
    exact hshowable
  obtain ⟨s₂, hs₂, hobject₂⟩ :=
    getPictureMessage_ok (s := { s₁ with initialLoadComplete := true }) hshowable₁
  have hsame := getPictureMessage_outcome { s₁ with initialLoadComplete := true }
  rw [hs₂] at hsame
  have hopen : vc.openChat docs = .ok
      ⟨s₂, if s₂.loadedMessages.length > 10 then .issued else .notIssued⟩ := by
    rw [openChat, loadMessages_eq, hinitial]
    show (vc.insertMessages { loadedMessages := initial } >>= _) = _
    rw [hs₁]
    show (ChatState.getPictureMessage _ >>= _) = _
    rw [hs₂]
    rfl
  have hpages := vc.openChat_outcome docs
  rw [hopen] at hpages
  have hloaded : s₂.loadedMessages = initial := hsame.loaded.trans hloaded₁
  refine ⟨_, hopen, hpages, hloaded.trans hinitial.symm, hloaded ▸ hshowable, ?_, ?_, ?_⟩
  · exact hloaded ▸ hsame.count.trans hcount₁
  · exact hloaded ▸ hobject₂.trans hobject₁
  · simp only [hsame.header, hheader₁, hsame.count, hsame.loaded]

end LiChat
