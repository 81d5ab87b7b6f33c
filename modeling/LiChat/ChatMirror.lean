import LiChat.General.Histories
import LiChat.ShownMessages

/-!
# The chat screen and the stored messages

Documents are delivered by the initial and the background query and by two listeners.
A modified document is looked for among the shown messages, and is only compared with
the one that has its id.
-/

namespace LiChat
open Histories

structure DeliveredMessage where
  data : MessageDictionary
  stored : data.legit → StoredMessage data

/-- What can happen to an open chat.  The initial query finds its window in the given
collection; the background query returns all of the given one. -/
inductive ScreenEvent where
  | initialSnapshot (snapshot : Option MessageCollection)
  | backgroundSnapshot (snapshot : Option MessageCollection)
  | added (item : DeliveredMessage)
  | modified (item : DeliveredMessage)
  | didTapLoadEarlierMessagesButton
  | didDeleteMessageAt (row : ℕ)

/-- The screen, and all documents delivered to it so far. -/
structure MirroredChat (JSQMessage : Type) where
  screen : Except Trap (OpenChat JSQMessage)
  delivered : List MessageDictionary

namespace ChatScreen
variable {JSQMessage : Type}

/-- `objectMessages[index]` -/
def objectMessage (s : ChatState JSQMessage) (index : ℕ) : Except Trap MessageDictionary :=
  match s.objectMessages[index]? with
  | some messageDictionary => .ok messageDictionary
  | none => .error .index

/-- One round of the loop of `updateMessage`. -/
def updateMessageAt (messageDictionary : MessageDictionary) (s : ChatState JSQMessage)
    (index : ℕ) : Except Trap (ChatState JSQMessage) := do
  let temp ← objectMessage s index
  let messageId ← unwrap messageDictionary.messageId
  let tempId ← unwrap temp.messageId
  if messageId = tempId then
    -- `objectMessages[index] == messageDictionary`, a value that nothing uses
    let _ ← objectMessage s index
    return s
  else return s

def updateMessage (messageDictionary : MessageDictionary) (s : ChatState JSQMessage) :
    Except Trap (ChatState JSQMessage) :=
  (List.range s.objectMessages.length).foldlM (updateMessageAt messageDictionary) s

def didDeleteMessageAt (row : ℕ) (s : ChatState JSQMessage) :
    Except Trap (ChatState JSQMessage) := do
  let messageDictionary ← objectMessage s row
  let _ ← unwrap messageDictionary.messageId
  return { s with
    objectMessages := s.objectMessages.eraseIdx row
    messages := s.messages.eraseIdx row }

variable (vc : ChatScreen JSQMessage)

/-- One event.  The listener for new messages and the header wait for the initial query;
the listener for updates does not. -/
def mirrorStep : MirroredChat JSQMessage → ScreenEvent → Option (MirroredChat JSQMessage)
  | ⟨.error _, _⟩, _ => none
  | ⟨.ok s, delivered⟩, .initialSnapshot snapshot =>
    if s.chat.initialLoadComplete then none
    else
      match snapshot with
      | some collection => some ⟨vc.openChat collection.documents,
          delivered ++ dictionaryFromSnapshots (lastElevenMessages collection.documents)⟩
      | none => some ⟨.ok { s with chat := { s.chat with initialLoadComplete := true } }, delivered⟩
  | ⟨.ok s, delivered⟩, .backgroundSnapshot none =>
    (vc.step (.ok s) (.backgroundSnapshot none)).map fun screen => ⟨screen, delivered⟩
  | ⟨.ok s, delivered⟩, .backgroundSnapshot (some collection) =>
    (vc.step (.ok s) (.backgroundSnapshot (some collection.documents))).map fun screen =>
      ⟨screen, delivered ++ dictionaryFromSnapshots collection.documents⟩
  | ⟨.ok s, delivered⟩, .added item =>
    if s.chat.initialLoadComplete then
      (vc.step (.ok s) (.added item.data)).map fun screen => ⟨screen, delivered ++ [item.data]⟩
    else none
  | ⟨.ok s, delivered⟩, .modified item =>
    some ⟨(updateMessage item.data s.chat).map fun chat => { s with chat := chat },
      delivered ++ [item.data]⟩
  | ⟨.ok s, delivered⟩, .didTapLoadEarlierMessagesButton =>
    (vc.step (.ok s) .didTapLoadEarlierMessagesButton).map fun screen => ⟨screen, delivered⟩
  | ⟨.ok s, delivered⟩, .didDeleteMessageAt row =>
    if row < s.chat.messages.length then
      some ⟨(didDeleteMessageAt row s.chat).map fun chat => { s with chat := chat }, delivered⟩
    else none

/-- A chat whose initial query has not been answered. -/
def opening : MirroredChat JSQMessage := ⟨.ok ⟨{}, .notIssued⟩, []⟩

/-- Every shown message is the latest delivered version of its document. -/
def Mirrors (w : MirroredChat JSQMessage) : Prop :=
  match w.screen with
  | .ok s => Current MessageDictionary.messageId s.chat.objectMessages w.delivered
  | .error _ => True

instance : DecidablePred (@Mirrors JSQMessage)
  | ⟨.ok s, delivered⟩ => inferInstanceAs (Decidable (Current _ s.chat.objectMessages delivered))
  | ⟨.error _, _⟩ => inferInstanceAs (Decidable True)

/-- Shown messages that are delivered again have not changed. -/
def Agrees (s : ChatState JSQMessage) (items : List MessageDictionary) : Prop :=
  ∀ m ∈ s.objectMessages, ∀ item ∈ items, item.messageId = m.messageId → item = m

/-- No delivery changes a shown message, and the messages of the next page have not changed
since they were loaded. -/
def Unchanged : MirroredChat JSQMessage → ScreenEvent → Prop
  | ⟨.ok s, _⟩, .backgroundSnapshot (some collection) =>
    Agrees s.chat (dictionaryFromSnapshots collection.documents)
  | ⟨.ok s, _⟩, .added item => Agrees s.chat [item.data]
  | ⟨.ok s, _⟩, .modified item => Agrees s.chat [item.data]
  | ⟨.ok s, delivered⟩, .didTapLoadEarlierMessagesButton =>
    s.background = .completed → Current MessageDictionary.messageId s.chat.nextPage delivered
  | _, _ => True

/-- The pages are in step, and everything loaded or shown is a document of the app. -/
structure Intact (s : OpenChat JSQMessage) : Prop where
  pages : Pages s
  loaded : ∀ m ∈ s.chat.loadedMessages, Showable vc m
  shown : ∀ m ∈ s.chat.objectMessages, Showable vc m

section Events
variable {vc}

theorem objectMessage_eq {s : ChatState JSQMessage} {index : ℕ}
    (h : index < s.objectMessages.length) :
    objectMessage s index = .ok s.objectMessages[index] := by
  rw [objectMessage, List.getElem?_eq_getElem h]

theorem updateMessageAt_eq {s : ChatState JSQMessage} {item : MessageDictionary}
    {messageId : String} (hitem : item.messageId = some messageId)
    (hshown : ∀ m ∈ s.objectMessages, Showable vc m) {index : ℕ}
    (hindex : index < s.objectMessages.length) : updateMessageAt item s index = .ok s := by
  obtain ⟨tempId, htempId⟩ := (hshown _ (List.getElem_mem hindex)).messageId
  simp only [updateMessageAt, objectMessage_eq hindex, hitem, htempId, unwrap, bind, Except.bind]
  split_ifs <;> rfl

/-- `updateMessage` changes nothing. -/
theorem updateMessage_eq {s : ChatState JSQMessage} {item : MessageDictionary} {messageId : String}
    (hitem : item.messageId = some messageId)
    (hshown : ∀ m ∈ s.objectMessages, Showable vc m) : updateMessage item s = .ok s := by
  have hloop : ∀ range : List ℕ, (∀ index ∈ range, index < s.objectMessages.length) →
      range.foldlM (updateMessageAt item) s = .ok s := by
    intro range
    induction range with
    | nil => exact fun _ => rfl
    | cons index range ih =>
      intro hrange
      obtain ⟨hindex, hrange⟩ := List.forall_mem_cons.mp hrange
      rw [List.foldlM_cons, updateMessageAt_eq hitem hshown hindex]
      exact ih hrange
  exact hloop _ fun index hindex => List.mem_range.mp hindex

theorem updateMessage_none {s : ChatState JSQMessage} {item : MessageDictionary}
    (hitem : item.messageId = none) :
    updateMessage item s = .ok s ∨ updateMessage item s = .error .unwrap := by
  cases hshown : s.objectMessages with
  | nil =>
    left
    rw [updateMessage, hshown]
    rfl
  | cons m shown =>
    right
    have hround : updateMessageAt item s 0 = .error .unwrap := by
      simp only [updateMessageAt, objectMessage, hshown, List.getElem?_cons_zero, hitem, unwrap,
        bind, Except.bind]
    rw [updateMessage, hshown, List.length_cons, List.range_succ_eq_map, List.foldlM_cons, hround]
    rfl

theorem agrees_of_no_messageId {s : ChatState JSQMessage} {item : MessageDictionary}
    (hitem : item.messageId = none) (hshown : ∀ m ∈ s.objectMessages, Showable vc m) :
    Agrees s [item] := by
  intro m hm item' hitem' hid
  obtain rfl := List.mem_singleton.mp hitem'
  obtain ⟨messageId, hmessageId⟩ := (hshown m hm).messageId
  rw [hitem, hmessageId] at hid
  exact absurd hid (by simp)

theorem Intact.samePages {s : OpenChat JSQMessage} (h : Intact vc s) {chat : ChatState JSQMessage}
    (hsame : SamePages s.chat chat) (hshown : ∀ m ∈ chat.objectMessages, Showable vc m) :
    Intact vc { s with chat := chat } where
  pages := pages_of_samePages hsame h.pages
  loaded := hsame.loaded ▸ h.loaded
  shown := hshown

variable (vc) in
/-- What holds of every state: after a trap nothing is asked for. -/
def IntactOrTrap (w : MirroredChat JSQMessage) : Prop :=
  match w.screen with
  | .ok s => Intact vc s
  | .error _ => True

variable {s : OpenChat JSQMessage} {delivered : List MessageDictionary}

theorem modified_mirrors (hs : Intact vc s)
    (hcurrent : Current MessageDictionary.messageId s.chat.objectMessages delivered)
    (item : MessageDictionary) {w : MirroredChat JSQMessage}
    (hw : w = ⟨(updateMessage item s.chat).map fun chat => { s with chat := chat },
      delivered ++ [item]⟩) : IntactOrTrap vc w ∧ (Mirrors w ↔ Agrees s.chat [item]) := by
  have hagrees : Current MessageDictionary.messageId s.chat.objectMessages (delivered ++ [item]) ↔
      Agrees s.chat [item] := current_append_iff (List.nodup_singleton _) hcurrent
  cases hid : item.messageId with
  | some messageId =>
    rw [updateMessage_eq hid hs.shown] at hw
    subst hw
    exact ⟨hs, hagrees⟩
  | none =>
    rcases updateMessage_none (s := s.chat) hid with hok | htrap
    · rw [hok] at hw
      subst hw
      exact ⟨hs, hagrees⟩
    · rw [htrap] at hw
      subst hw
      exact ⟨trivial, fun _ => agrees_of_no_messageId hid hs.shown, fun _ => trivial⟩

theorem added_mirrors (hs : Intact vc s)
    (hcurrent : Current MessageDictionary.messageId s.chat.objectMessages delivered)
    {item : MessageDictionary} (hitem : item.legit → Showable vc item)
    {w : MirroredChat JSQMessage}
    (hw : w = ⟨(vc.addedMessage item s.chat).map fun chat => { s with chat := chat },
      delivered ++ [item]⟩) : IntactOrTrap vc w ∧ (Mirrors w ↔ Agrees s.chat [item]) := by
  obtain ⟨chat, hchat, hobject⟩ := addedMessage_ok hitem s.chat
  have hsame := vc.addedMessage_outcome item s.chat
  rw [hchat] at hsame hw
  subst hw
  have hnew : Current MessageDictionary.messageId (if item.legit then [item] else [])
      (delivered ++ [item]) := by
    have hids : ([item].map MessageDictionary.messageId).Nodup := List.nodup_singleton _
    refine current_of_subset hids fun m hm => ?_
    split_ifs at hm
    · exact hm
    · exact absurd hm List.not_mem_nil
  refine ⟨hs.samePages hsame ?_, ?_⟩
  · rw [hobject]
    refine List.forall_mem_append.mpr ⟨hs.shown, fun m hm => ?_⟩
    split_ifs at hm with hlegit
    · exact List.mem_singleton.mp hm ▸ hitem hlegit
    · exact absurd hm List.not_mem_nil
  · show Current _ chat.objectMessages _ ↔ _
    rw [hobject, current_append_left, and_iff_left hnew]
    exact current_append_iff (List.nodup_singleton _) hcurrent

theorem tap_mirrors (hs : Intact vc s)
    (hcurrent : Current MessageDictionary.messageId s.chat.objectMessages delivered)
    (hheader : s.chat.showLoadEarlierMessagesHeader = true) {w : MirroredChat JSQMessage}
    (hw : w = ⟨(vc.loadMoreMessages s.chat.maxMessageNumber s.chat.minMessageNumber s.chat).map
      fun chat => { s with chat := chat }, delivered⟩) :
    IntactOrTrap vc w ∧ (Mirrors w ↔ (s.background = .completed →
      Current MessageDictionary.messageId s.chat.nextPage delivered)) := by
  have hpages := hs.pages
  -- before the background query has been answered, the tap traps
  have hearly : FirstPage s.chat → s.background ≠ .completed →
      IntactOrTrap vc w ∧ (Mirrors w ↔ (s.background = .completed →
        Current MessageDictionary.messageId s.chat.nextPage delivered)) := by
    intro hfirst hback
    rw [vc.loadMoreMessages_firstPage hfirst] at hw
    subst hw
    exact ⟨trivial, fun _ h => absurd h hback, fun _ => trivial⟩
  cases hback : s.background with
  | notIssued =>
    rw [Pages, hback] at hpages
    exact absurd (hheader.symm.trans hpages) (by decide)
  | issued =>
    rw [Pages, hback] at hpages
    exact hback ▸ hearly hpages.1 (by simp [hback])
  | failed =>
    rw [Pages, hback] at hpages
    exact hback ▸ hearly hpages (by simp [hback])
  | completed =>
    rw [Pages, hback] at hpages
    obtain ⟨count, hcount, hlt⟩ := exists_count hpages hheader
    obtain ⟨chat, hchat, hloaded, -, hobject, -⟩ := loadMoreMessages_ok s.chat.maxMessageNumber
      hcount hlt (nextBounds hpages hcount) hs.loaded
    have hlater := vc.loadMoreMessages_later s.chat.maxMessageNumber hpages hheader
    rw [hchat] at hlater hw
    subst hw
    refine ⟨⟨?_, ?_, ?_⟩, ?_⟩
    · rw [Pages, hback]
      exact Or.inr hlater
    · exact hloaded ▸ hs.loaded
    · show ∀ m ∈ chat.objectMessages, _
      rw [hobject]
      exact List.forall_mem_append.mpr
        ⟨fun m hm => hs.loaded m (ChatState.mem_of_mem_nextPage hm), hs.shown⟩
    · show Current _ chat.objectMessages _ ↔ _
      rw [hobject, current_append_left, and_iff_left hcurrent]
      exact ⟨fun h _ => h, fun h => h rfl⟩

theorem background_mirrors (hs : Intact vc s)
    (hcurrent : Current MessageDictionary.messageId s.chat.objectMessages delivered)
    (hback : s.background = .issued) {collection : MessageCollection}
    (hdocs : ∀ d ∈ collection.documents, d.data.legit → Showable vc d.data)
    {w : MirroredChat JSQMessage}
    (hw : w = ⟨(oldMessagesLoaded collection.documents s.chat).map fun chat => ⟨chat, .completed⟩,
      delivered ++ dictionaryFromSnapshots collection.documents⟩) :
    IntactOrTrap vc w ∧
      (Mirrors w ↔ Agrees s.chat (dictionaryFromSnapshots collection.documents)) := by
  have hpages := hs.pages
  rw [Pages, hback] at hpages
  obtain ⟨chat, hchat, hnext, hloaded, -, hobject, -⟩ :=
    oldMessagesLoaded_ok hpages.1 hpages.2 hs.loaded hdocs
  rw [hchat] at hw
  subst hw
  refine ⟨⟨Or.inl hnext, ?_, ?_⟩, ?_⟩
  · show ∀ m ∈ chat.loadedMessages, _
    rw [hloaded]
    exact List.forall_mem_append.mpr ⟨forall_mem_legitMessages.mpr hdocs, hs.loaded⟩
  · exact hobject ▸ hs.shown
  · show Current _ chat.objectMessages _ ↔ _
    rw [hobject]
    exact current_append_iff collection.nodup_messageId hcurrent

theorem initial_mirrors (hvc : ∀ m, StoredMessage m → Showable vc m)
    (collection : MessageCollection) {w : MirroredChat JSQMessage}
    (hw : w = ⟨vc.openChat collection.documents,
      delivered ++ dictionaryFromSnapshots (lastElevenMessages collection.documents)⟩) :
    IntactOrTrap vc w ∧ Mirrors w := by
  obtain ⟨s, hopen, hpages, hloaded, hshowable, -, hobject, -⟩ :=
    openChat_ok fun d hd hlegit => hvc d.data (collection.stored d hd hlegit)
  have hshown : ∀ m ∈ s.chat.objectMessages, m ∈ s.chat.loadedMessages := by
    intro m hm
    rw [hobject] at hm
    exact List.mem_of_mem_drop hm
  rw [hopen] at hw
  subst hw
  refine ⟨⟨hpages, hshowable, fun m hm => hshowable m (hshown m hm)⟩, ?_⟩
  apply current_of_subset (nodup_lastEleven collection.nodup_messageId)
  intro m hm
  obtain ⟨d, hd, rfl, -⟩ := mem_initialMessages.mp (hloaded ▸ hshown m hm)
  exact List.mem_map_of_mem hd

theorem delete_mirrors (hs : Intact vc s)
    (hcurrent : Current MessageDictionary.messageId s.chat.objectMessages delivered) (row : ℕ)
    {w : MirroredChat JSQMessage}
    (hw : w = ⟨(didDeleteMessageAt row s.chat).map fun chat => { s with chat := chat },
      delivered⟩) : IntactOrTrap vc w ∧ Mirrors w := by
  cases hdelete : didDeleteMessageAt row s.chat with
  | error t =>
    rw [hdelete] at hw
    subst hw
    exact ⟨trivial, trivial⟩
  | ok chat =>
    have hchat : SamePages s.chat chat ∧
        chat.objectMessages.Sublist s.chat.objectMessages := by
      unfold didDeleteMessageAt at hdelete
      cases hrow : objectMessage s.chat row with
      | error t =>
        rw [hrow] at hdelete
        cases hdelete
      | ok m =>
        cases hid : m.messageId with
        | none =>
          rw [hrow] at hdelete
          simp only [hid, unwrap, bind, Except.bind] at hdelete
          cases hdelete
        | some messageId =>
          rw [hrow] at hdelete
          simp only [hid, unwrap, bind, Except.bind] at hdelete
          cases hdelete
          exact ⟨⟨rfl, rfl, rfl, rfl, rfl, rfl⟩, List.eraseIdx_sublist ..⟩
    rw [hdelete] at hw
    subst hw
    exact ⟨hs.samePages hchat.1 fun m hm => hs.shown m (hchat.2.subset hm),
      hcurrent.sublist hchat.2⟩

end Events

variable {vc} in
theorem mirrorStep_mirrors (hvc : ∀ m, StoredMessage m → Showable vc m)
    {w w' : MirroredChat JSQMessage} {e : ScreenEvent} (hw : IntactOrTrap vc w) (hP : Mirrors w)
    (h : vc.mirrorStep w e = some w') : IntactOrTrap vc w' ∧ (Mirrors w' ↔ Unchanged w e) := by
  obtain ⟨screen, delivered⟩ := w
  cases screen with
  | error t => simp [mirrorStep] at h
  | ok s =>
    have hs : Intact vc s := hw
    have hcurrent : Current MessageDictionary.messageId s.chat.objectMessages delivered := hP
    cases e with
    | initialSnapshot snapshot =>
      simp only [mirrorStep, Option.ite_none_left_eq_some] at h
      cases snapshot with
      | none =>
        obtain rfl := Option.some.inj h.2
        have hsame : SamePages s.chat { s.chat with initialLoadComplete := true } :=
          ⟨rfl, rfl, rfl, rfl, rfl, rfl⟩
        exact ⟨hs.samePages hsame hs.shown, fun _ => trivial, fun _ => hcurrent⟩
      | some collection =>
        obtain ⟨hintact, hmirrors⟩ := initial_mirrors hvc collection (Option.some.inj h.2).symm
        exact ⟨hintact, fun _ => trivial, fun _ => hmirrors⟩
    | backgroundSnapshot snapshot =>
      cases snapshot with
      | none =>
        simp only [mirrorStep, step, Option.map_eq_some_iff, Option.ite_none_right_eq_some] at h
        obtain ⟨screen, ⟨hback, hscreen⟩, rfl⟩ := h
        obtain rfl := Option.some.inj hscreen
        have hpages := hs.pages
        rw [Pages, hback] at hpages
        exact ⟨⟨hpages.1, hs.loaded, hs.shown⟩, fun _ => trivial, fun _ => hcurrent⟩
      | some collection =>
        simp only [mirrorStep, step, Option.map_eq_some_iff, Option.ite_none_right_eq_some] at h
        obtain ⟨screen, ⟨hback, hscreen⟩, hw'⟩ := h
        obtain rfl := Option.some.inj hscreen
        exact background_mirrors hs hcurrent hback
          (fun d hd hlegit => hvc d.data (collection.stored d hd hlegit)) hw'.symm
    | added item =>
      simp only [mirrorStep, step, Option.ite_none_right_eq_some, Option.map_some] at h
      exact added_mirrors hs hcurrent (fun hlegit => hvc item.data (item.stored hlegit))
        (Option.some.inj h.2).symm
    | modified item => exact modified_mirrors hs hcurrent item.data (Option.some.inj h).symm
    | didTapLoadEarlierMessagesButton =>
      simp only [mirrorStep, step, Option.map_eq_some_iff, Option.ite_none_right_eq_some] at h
      obtain ⟨screen, ⟨hheader, hscreen⟩, hw'⟩ := h
      obtain rfl := Option.some.inj hscreen
      exact tap_mirrors hs hcurrent hheader hw'.symm
    | didDeleteMessageAt row =>
      simp only [mirrorStep, Option.ite_none_right_eq_some] at h
      obtain ⟨hintact, hmirrors⟩ := delete_mirrors hs hcurrent row (Option.some.inj h.2).symm
      exact ⟨hintact, fun _ => trivial, fun _ => hmirrors⟩

/-- Whatever happens to an open chat, it mirrors the stored messages throughout exactly when
no delivery changes a message that is shown or paged in later. -/
theorem chat_mirrors_iff (incoming : IncomingMessage) (events : List ScreenEvent) :
    Runs.Always incoming.chatScreen.mirrorStep Mirrors opening events ↔
      Runs.Guarded incoming.chatScreen.mirrorStep Unchanged opening events := by
  have hvc : ∀ m, StoredMessage m → Showable incoming.chatScreen m :=
    fun m hm => hm.showable incoming
  apply Runs.always_iff_guarded (I := IntactOrTrap incoming.chatScreen)
  · intro w e w' hw hP h
    exact mirrorStep_mirrors hvc hw hP h
  · exact ⟨rfl, fun m hm => absurd hm List.not_mem_nil, fun m hm => absurd hm List.not_mem_nil⟩
  · exact fun m hm => absurd hm List.not_mem_nil

def readText (i : ℕ) (hi : i < 60) : DeliveredMessage where
  data :=
    { (textOfAlice i).data with status := some kREAD, readDate := some "20190204120000" }
  stored := fun _ => (storedMessage_textOfAlice hi).updateMessage "20190204120000"

/-- A shown text stays "delivered" when it has been read; so does a text that is read after
it has been loaded and before it is paged in. -/
theorem chat_mirrors_fails_read :
    ¬ Runs.Always bobIncoming.chatScreen.mirrorStep Mirrors opening
      [.initialSnapshot (some (textsOfAlice [0] (by decide) (by decide))),
        .modified (readText 0 (by decide))] ∧
    ¬ Runs.Always bobIncoming.chatScreen.mirrorStep Mirrors opening
      [.initialSnapshot (some twelveTexts), .modified (readText 1 (by decide)),
        .backgroundSnapshot (some (textsOfAlice [0] (by decide) (by decide))),
        .didTapLoadEarlierMessagesButton] := by
  have hfails : ∀ events, ((Runs.exec bobIncoming.chatScreen.mirrorStep opening events).map
      fun w => decide (Mirrors w)) = some false →
      ¬ Runs.Always bobIncoming.chatScreen.mirrorStep Mirrors opening events := by
    intro events hlast h
    obtain ⟨w, hw, hfalse⟩ := Option.map_eq_some_iff.mp hlast
    exact of_decide_eq_false hfalse (h.last hw)
  exact ⟨hfails _ (by decide +kernel), hfails _ (by decide +kernel)⟩

end ChatScreen

end LiChat
