import LiChat.PagingHistory

/-!
# The picture gallery

Loading rebuilds the list of picture links from the loaded messages; the new-chat
listener appends to it.
-/

namespace LiChat
open ChatScreen

def pictureLinks (messages : List MessageDictionary) : List String :=
  messages.filterMap fun m => if m.type = some kPICTURE then m.picture else none

/-- No picture message has been added when the background query is answered. -/
def NoPictureBeforeBackground (events : List ChatEvent) : Prop :=
  ∀ pre docs post, events = pre ++ .backgroundSnapshot (some docs) :: post →
    ∀ m ∈ addedMessages pre, m.type ≠ some kPICTURE

theorem pictureLinks_append (l l' : List MessageDictionary) :
    pictureLinks (l ++ l') = pictureLinks l ++ pictureLinks l' := List.filterMap_append

theorem getPictureMessage_links {JSQMessage : Type} {s s' : ChatState JSQMessage}
    (h : s.getPictureMessage = .ok s') : s'.allPictureMessages = pictureLinks s.loadedMessages := by
  have hloop : ∀ (l : List MessageDictionary) (links links' : List String),
      (l.foldlM (fun links message => do
        let type ← unwrap message.type
        if type = kPICTURE then
          let link ← unwrap message.picture
          return links ++ [link]
        else return links) links : Except Trap (List String)) = .ok links' →
      links' = links ++ pictureLinks l := by
    intro l
    induction l with
    | nil =>
      intro links links' hlinks
      rw [← Except.ok.inj hlinks]
      exact (List.append_nil links).symm
    | cons message l ih =>
      intro links links' hlinks
      rw [List.foldlM_cons] at hlinks
      obtain ⟨links₁, hround, hrest⟩ := bind_eq_ok hlinks
      obtain ⟨type, htype, hround⟩ := bind_eq_ok hround
      rw [ih links₁ links' hrest]
      have htype := unwrap_eq_ok htype
      by_cases hpicture : type = kPICTURE
      · rw [if_pos hpicture] at hround
        obtain ⟨link, hlink, hround⟩ := bind_eq_ok hround
        rw [← Except.ok.inj hround]
        simp [pictureLinks, htype, hpicture, unwrap_eq_ok hlink]
      · rw [if_neg hpicture] at hround
        rw [← Except.ok.inj hround]
        simp [pictureLinks, htype, hpicture]
  obtain ⟨links, hlinks, h⟩ := bind_eq_ok h
  obtain rfl := Except.ok.inj h
  exact hloop s.loadedMessages [] links hlinks

namespace ChatScreen
variable {JSQMessage : Type} {vc : ChatScreen JSQMessage}

theorem updateIncoming_links {m : MessageDictionary} {s s' : ChatState JSQMessage}
    (h : vc.updateIncoming m s = .ok s') : s'.allPictureMessages = s.allPictureMessages := by
  obtain ⟨senderId, -, h⟩ := bind_eq_ok h
  split_ifs at h
  · obtain ⟨messageId, -, h⟩ := bind_eq_ok h
    rw [← Except.ok.inj h]
  · rw [← Except.ok.inj h]

theorem insertInitialLoadMessages_links {m : MessageDictionary} {s s' : ChatState JSQMessage}
    (h : vc.insertInitialLoadMessages m s = .ok s') :
    s'.allPictureMessages = s.allPictureMessages := by
  obtain ⟨s₁, hs₁, h⟩ := bind_eq_ok h
  rw [← updateIncoming_links hs₁]
  cases hmessage : vc.createMessage m with
  | none =>
    rw [hmessage] at h
    rw [← Except.ok.inj h]
  | some message =>
    rw [hmessage] at h
    rw [← Except.ok.inj h]

theorem insertNewMessage_links {m : MessageDictionary} {s s' : ChatState JSQMessage}
    (h : vc.insertNewMessage m s = .ok s') :
    s'.loadedMessages = s.loadedMessages ∧ s'.allPictureMessages = s.allPictureMessages := by
  obtain ⟨message, -, h⟩ := bind_eq_ok h
  rw [← Except.ok.inj h]
  exact ⟨rfl, rfl⟩

theorem loadMoreMessages_links {maxNumber minNumber : ℤ} {s s' : ChatState JSQMessage}
    (h : vc.loadMoreMessages maxNumber minNumber s = .ok s') :
    s'.loadedMessages = s.loadedMessages ∧ s'.allPictureMessages = s.allPictureMessages := by
  obtain ⟨range, -, h⟩ := bind_eq_ok h
  obtain ⟨s₁, hs₁, h⟩ := bind_eq_ok h
  have hlinks : s₁.loadedMessages = s.loadedMessages ∧
      s₁.allPictureMessages = s.allPictureMessages := by
    refine showMessages_keeps (P := fun t => t.loadedMessages = s.loadedMessages ∧
        t.allPictureMessages = s.allPictureMessages) (fun _ _ hkept => hkept)
      (fun m t t' _ ht hkept => ?_) hs₁ ⟨rfl, rfl⟩
    obtain ⟨hloaded, hlinks⟩ := insertNewMessage_links ht
    exact ⟨hloaded.trans hkept.1, hlinks.trans hkept.2⟩
  rw [← Except.ok.inj h]
  exact hlinks

theorem openChat_links {docs : List MessageDocument} {s : OpenChat JSQMessage}
    (h : vc.openChat docs = .ok s) :
    s.chat.allPictureMessages = pictureLinks s.chat.loadedMessages := by
  obtain ⟨loadedMessages, -, h⟩ := bind_eq_ok h
  obtain ⟨s₁, -, h⟩ := bind_eq_ok h
  obtain ⟨s₂, hs₂, h⟩ := bind_eq_ok h
  have hsame := getPictureMessage_outcome ({ s₁ with initialLoadComplete := true } : ChatState JSQMessage)
  rw [hs₂] at hsame
  have hlinks := getPictureMessage_links hs₂
  rw [← hsame.loaded] at hlinks
  rw [← Except.ok.inj h]
  exact hlinks

theorem oldMessagesLoaded_links {docs : List MessageDocument} {s s' : ChatState JSQMessage}
    (h : oldMessagesLoaded docs s = .ok s') :
    s'.allPictureMessages = pictureLinks s'.loadedMessages := by
  obtain ⟨older, -, h⟩ := bind_eq_ok h
  obtain ⟨s₁, hs₁, h⟩ := bind_eq_ok h
  have hsame := getPictureMessage_outcome
    ({ s with loadedMessages := older ++ s.loadedMessages } : ChatState JSQMessage)
  rw [hs₁] at hsame
  have hlinks := getPictureMessage_links hs₁
  rw [← hsame.loaded] at hlinks
  rw [← Except.ok.inj h]
  exact hlinks

theorem addedMessage_links {item : MessageDictionary} {s s' : ChatState JSQMessage}
    (h : vc.addedMessage item s = .ok s') :
    s'.allPictureMessages =
        s.allPictureMessages ++ pictureLinks (ChatEvent.added item).addedMessage ∧
      (item.legit → item.type = some kPICTURE → ∃ link, item.picture = some link) := by
  unfold addedMessage at h
  split_ifs at h with hlegit
  · obtain ⟨s₁, hs₁, h⟩ := bind_eq_ok h
    rw [insertInitialLoadMessages_links h, ChatEvent.addedMessage, if_pos hlegit]
    unfold addNewPictureMessageLink at hs₁
    split_ifs at hs₁ with htype
    · obtain ⟨link, hlink, hs₁⟩ := bind_eq_ok hs₁
      have hpicture := unwrap_eq_ok hlink
      rw [← Except.ok.inj hs₁]
      exact ⟨by simp [pictureLinks, htype, hpicture], fun _ _ => ⟨link, hpicture⟩⟩
    · rw [← Except.ok.inj hs₁]
      exact ⟨by simp [pictureLinks, htype], fun _ htype' => absurd htype' htype⟩
  · rw [← Except.ok.inj h, ChatEvent.addedMessage, if_neg hlegit]
    exact ⟨(List.append_nil _).symm, fun hlegit' => absurd hlegit' hlegit⟩

end ChatScreen

theorem addedMessages_append (events events' : List ChatEvent) :
    addedMessages (events ++ events') = addedMessages events ++ addedMessages events' :=
  List.flatMap_append

/-- The gallery after `pre ++ post`, where the events `post` came after it had been rebuilt
last. -/
structure Gallery {JSQMessage : Type} (s : OpenChat JSQMessage) (pre post : List ChatEvent) :
    Prop where
  links : s.chat.allPictureMessages =
    pictureLinks s.chat.loadedMessages ++ pictureLinks (addedMessages post)
  rebuilt : pre = [] ∨ ∃ pre' docs, pre = pre' ++ [.backgroundSnapshot (some docs)]
  since : ∀ docs, .backgroundSnapshot (some docs) ∉ post
  pictures : ∀ m ∈ addedMessages (pre ++ post), m.type = some kPICTURE → ∃ link, m.picture = some link

namespace Gallery
variable {JSQMessage : Type} {vc : ChatScreen JSQMessage} {s s' : OpenChat JSQMessage}
  {pre post : List ChatEvent}

theorem concat (h : Gallery s pre post) {e : ChatEvent}
    (hlinks : s'.chat.allPictureMessages = s.chat.allPictureMessages ++ pictureLinks e.addedMessage)
    (hloaded : s'.chat.loadedMessages = s.chat.loadedMessages)
    (hsince : ∀ docs, e ≠ .backgroundSnapshot (some docs))
    (hpictures : ∀ m ∈ e.addedMessage, m.type = some kPICTURE → ∃ link, m.picture = some link) :
    Gallery s' pre (post ++ [e]) where
  links := by
    rw [hlinks, h.links, hloaded, addedMessages_append, pictureLinks_append, List.append_assoc]
    simp [addedMessages]
  rebuilt := h.rebuilt
  since docs hmem := by
    rcases List.mem_append.mp hmem with hpost | he
    · exact h.since docs hpost
    · exact hsince docs (List.mem_singleton.mp he).symm
  pictures := by
    rw [← List.append_assoc, addedMessages_append, List.forall_mem_append]
    exact ⟨h.pictures, by simpa [addedMessages] using hpictures⟩

theorem step (h : Gallery s pre post) {e : ChatEvent} (hstep : vc.step (.ok s) e = some (.ok s')) :
    ∃ pre' post', pre' ++ post' = (pre ++ post) ++ [e] ∧ Gallery s' pre' post' := by
  cases e with
  | didTapLoadEarlierMessagesButton =>
    simp only [ChatScreen.step, Option.ite_none_right_eq_some, Option.some.injEq] at hstep
    obtain ⟨chat, hchat, rfl⟩ := map_eq_ok hstep.2
    obtain ⟨hloaded, hlinks⟩ := loadMoreMessages_links hchat
    refine ⟨pre, post ++ [.didTapLoadEarlierMessagesButton], by simp,
      h.concat ?_ hloaded (by simp) (by simp [ChatEvent.addedMessage])⟩
    rw [hlinks]
    exact (List.append_nil _).symm
  | backgroundSnapshot snapshot =>
    simp only [ChatScreen.step, Option.ite_none_right_eq_some] at hstep
    obtain ⟨-, hstep⟩ := hstep
    cases snapshot with
    | none =>
      obtain rfl := Except.ok.inj (Option.some.inj hstep)
      exact ⟨pre, post ++ [.backgroundSnapshot none], by simp,
        h.concat (List.append_nil _).symm rfl (by simp) (by simp [ChatEvent.addedMessage])⟩
    | some docs =>
      obtain ⟨chat, hchat, rfl⟩ := map_eq_ok (Option.some.inj hstep)
      -- the gallery is rebuilt from all that is loaded
      refine ⟨pre ++ post ++ [.backgroundSnapshot (some docs)], [], by simp, ?_, .inr ⟨_, docs, rfl⟩,
        by simp, ?_⟩
      · rw [oldMessagesLoaded_links hchat]
        exact (List.append_nil _).symm
      · rw [List.append_nil, addedMessages_append, List.forall_mem_append]
        exact ⟨h.pictures, by simp [addedMessages, ChatEvent.addedMessage]⟩
  | added item =>
    obtain ⟨chat, hchat, rfl⟩ := map_eq_ok (Option.some.inj hstep)
    have hsame := vc.addedMessage_outcome item s.chat
    rw [hchat] at hsame
    obtain ⟨hlinks, hpicture⟩ := addedMessage_links hchat
    refine ⟨pre, post ++ [.added item], by simp, h.concat hlinks hsame.loaded (by simp) ?_⟩
    intro m hm
    rw [ChatEvent.addedMessage] at hm
    split_ifs at hm with hlegit
    · obtain rfl := List.mem_singleton.mp hm
      exact hpicture hlegit
    · cases hm

theorem complete_iff (h : Gallery s pre post) :
    s.chat.allPictureMessages.Perm
        (pictureLinks s.chat.loadedMessages ++ pictureLinks (addedMessages (pre ++ post))) ↔
      pictureLinks (addedMessages pre) = [] := by
  rw [h.links, addedMessages_append, pictureLinks_append, List.perm_append_left_iff]
  constructor
  · intro hperm
    have hlength := hperm.length_eq
    rw [List.length_append] at hlength
    exact List.length_eq_zero_iff.mp (by omega)
  · intro hnil
    rw [hnil, List.nil_append]

theorem pictureLinks_eq_nil (h : Gallery s pre post) :
    pictureLinks (addedMessages pre) = [] ↔ NoPictureBeforeBackground (pre ++ post) := by
  have hpictures : pictureLinks (addedMessages pre) = [] ↔
      ∀ m ∈ addedMessages pre, m.type ≠ some kPICTURE := by
    rw [pictureLinks, List.filterMap_eq_nil_iff]
    refine forall₂_congr fun m hm => ?_
    constructor
    · intro hnone htype
      have hmem : m ∈ addedMessages (pre ++ post) := by
        rw [addedMessages_append]
        exact List.mem_append_left _ hm
      obtain ⟨link, hlink⟩ := h.pictures m hmem htype
      rw [if_pos htype, hlink] at hnone
      cases hnone
    · intro htype
      exact if_neg htype
  rw [hpictures]
  constructor
  · intro hpre before docs after hsplit m hm
    -- no rebuild comes after the last one
    have hbegins : before <+: pre := by
      rcases List.append_eq_append_iff.mp hsplit with ⟨mid, -, hpost⟩ | ⟨mid, rfl, -⟩
      · exact absurd (by simp [hpost]) (h.since docs)
      · exact List.prefix_append before mid
    obtain ⟨mid, rfl⟩ := hbegins
    rw [addedMessages_append] at hpre
    exact hpre m (List.mem_append_left _ hm)
  · intro hnone m hm
    rcases h.rebuilt with rfl | ⟨before, docs, rfl⟩
    · cases hm
    · rw [addedMessages_append] at hm
      have hbefore : m ∈ addedMessages before := by
        simpa [addedMessages, ChatEvent.addedMessage] using hm
      exact hnone before docs post (by simp) m hbefore

end Gallery

def GalleryReached {JSQMessage : Type} (vc : ChatScreen JSQMessage)
    (r : Except Trap (OpenChat JSQMessage)) (events : List ChatEvent) : Prop :=
  ∃ s pre post, r = .ok s ∧ pre ++ post = events ∧ History vc s events ∧ Gallery s pre post

/-- For every history and however the answer of the background query, new messages and taps
follow one another: the gallery has the link of every loaded and of every added picture
message, each once, exactly when no picture message is added before the background query is
answered. -/
theorem gallery_complete_iff (incoming : IncomingMessage) (collection : MessageCollection)
    (events : List ChatEvent)
    (hevents : Runs.Guarded incoming.chatScreen.step OfApp
      (incoming.chatScreen.openChat collection.documents) events)
    (r : Except Trap (OpenChat JSQMessage))
    (hrun : Runs.exec incoming.chatScreen.step (incoming.chatScreen.openChat collection.documents)
      events = some r) :
    ∃ s, r = .ok s ∧
      (s.chat.allPictureMessages.Perm
          (pictureLinks s.chat.loadedMessages ++ pictureLinks (addedMessages events)) ↔
        NoPictureBeforeBackground events) := by
  have hvc : ∀ m, StoredMessage m → Showable incoming.chatScreen m :=
    fun m hm => hm.showable incoming
  obtain ⟨s₀, hopen, hs₀⟩ := openChat_history hvc collection
  have hstart : GalleryReached incoming.chatScreen (.ok s₀) [] := by
    refine ⟨s₀, [], [], rfl, rfl, hs₀, ?_, .inl rfl, by simp, by simp [addedMessages]⟩
    rw [openChat_links hopen]
    exact (List.append_nil _).symm
  have hstep : ∀ r past e r', GalleryReached incoming.chatScreen r past → OfApp r e →
      incoming.chatScreen.step r e = some r' →
      GalleryReached incoming.chatScreen r' (past ++ [e]) := by
    rintro r past e r' ⟨s, pre, post, rfl, rfl, hs, hgallery⟩ he hstep
    obtain ⟨s', rfl, hs'⟩ := step_history hvc ⟨s, rfl, hs⟩ he hstep
    obtain ⟨pre', post', hsplit, hgallery'⟩ := hgallery.step hstep
    exact ⟨s', pre', post', rfl, hsplit, hs', hgallery'⟩
  rw [hopen] at hevents hrun
  obtain ⟨s, pre, post, rfl, hsplit, -, hgallery⟩ := Runs.exec_history hstep hstart hevents hrun
  refine ⟨s, rfl, ?_⟩
  rw [List.nil_append] at hsplit
  rw [← hsplit, hgallery.complete_iff, hgallery.pictureLinks_eq_nil]

def pictureOfAlice : MessageDictionary :=
  { OutgoingMessages.picture (dateFormatter 0) (ChatViewController.aliceScreen.encryptType kPICTURE)
      "cat.jpg" "alice" "Alice" (secondOf 30) kDELIVERED kPICTURE with
    messageId := some "cat" }

theorem storedMessage_pictureOfAlice : StoredMessage pictureOfAlice :=
  @StoredMessage.sendMessage ChatViewController.aliceScreen
    (FUser.make "alice" none 0 0 "" "Alice" "" "" "" "" "" "") (secondOf 30) "cat.jpg" (.picture [])
    _ "cat" rfl (inYears_secondOf (by decide))

theorem gallery_complete_picture_after_background :
    ∃ s, Runs.exec bobIncoming.chatScreen.step
        (bobIncoming.chatScreen.openChat twelveTexts.documents)
        [.backgroundSnapshot (some [textOfAlice 0]), .added pictureOfAlice] = some (.ok s) ∧
      s.chat.allPictureMessages.Perm (pictureLinks s.chat.loadedMessages ++ ["cat.jpg"]) := by
  obtain ⟨s₀, hopen, -, hanswers⟩ := openChat_twelveTexts
  have hguard : Runs.Guarded bobIncoming.chatScreen.step OfApp
      (bobIncoming.chatScreen.openChat twelveTexts.documents)
      [.backgroundSnapshot (some [textOfAlice 0]), .added pictureOfAlice] := by
    rw [hopen]
    exact Runs.guarded_cons.mpr fun r _ => ⟨hanswers, Runs.guarded_cons.mpr fun r' _ =>
      ⟨by cases r <;> exact fun _ => storedMessage_pictureOfAlice, Runs.guarded_nil⟩⟩
  have hsome : (Runs.exec bobIncoming.chatScreen.step
      (bobIncoming.chatScreen.openChat twelveTexts.documents)
      [.backgroundSnapshot (some [textOfAlice 0]), .added pictureOfAlice]).isSome := by
    decide +kernel
  obtain ⟨r, hr⟩ := Option.isSome_iff_exists.mp hsome
  obtain ⟨s, rfl, hiff⟩ := gallery_complete_iff bobIncoming twelveTexts _ hguard r hr
  refine ⟨s, hr, hiff.mpr ?_⟩
  intro pre docs post hsplit m hm
  cases pre with
  | nil => cases hm
  | cons e pre =>
    obtain ⟨rfl, hrest⟩ := List.cons_eq_cons.mp hsplit
    cases pre with
    | nil => cases hrest
    | cons e' pre =>
      obtain ⟨-, hrest'⟩ := List.cons_eq_cons.mp hrest
      exact absurd hrest' (by simp)

/-- A picture is added before the background query is answered: its link is lost. -/
theorem gallery_complete_fails_picture_before_background :
    StoredMessage pictureOfAlice ∧
    ∃ s, bobIncoming.chatScreen.openChat twelveTexts.documents = .ok s ∧
      AnswersQuery s.chat.loadedMessages [textOfAlice 0] ∧
      ∃ s', Runs.exec bobIncoming.chatScreen.step (.ok s)
          [.added pictureOfAlice, .backgroundSnapshot (some [textOfAlice 0])] = some (.ok s') ∧
        s'.background = .completed ∧ s'.chat.allPictureMessages = [] ∧
        ¬ s'.chat.allPictureMessages.Perm (pictureLinks s'.chat.loadedMessages ++
          pictureLinks (addedMessages
            [.added pictureOfAlice, .backgroundSnapshot (some [textOfAlice 0])])) := by
  refine ⟨storedMessage_pictureOfAlice, ?_⟩
  obtain ⟨s, hopen, -, hanswers⟩ := openChat_twelveTexts
  obtain ⟨r, hrun, hlost⟩ : ∃ r, Runs.exec bobIncoming.chatScreen.step
        (bobIncoming.chatScreen.openChat twelveTexts.documents)
        [.added pictureOfAlice, .backgroundSnapshot (some [textOfAlice 0])] = some r ∧
      r.toOption.any (fun s' => decide (s'.background = .completed ∧
        s'.chat.allPictureMessages = [])) = true := Runs.exists_of_any (by decide +kernel)
  rw [hopen] at hrun
  refine ⟨s, hopen, hanswers, ?_⟩
  cases r with
  | error t => exact absurd hlost Bool.false_ne_true
  | ok s' =>
    obtain ⟨hcompleted, hnil⟩ := of_decide_eq_true hlost
    refine ⟨s', hrun, hcompleted, hnil, ?_⟩
    have hlink : pictureLinks (addedMessages
        [.added pictureOfAlice, .backgroundSnapshot (some [textOfAlice 0])]) = ["cat.jpg"] := rfl
    rw [hnil, hlink]
    intro hperm
    simpa using hperm.length_eq

end LiChat
