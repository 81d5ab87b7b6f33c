import LiChat.LiveChats

/-!
# The events of an open chat

Each event of the screen keeps the invariant of an open chat.
-/

namespace LiChat
open ChatScreen Windows WriteQueues MessageWorld

namespace LiveChat
variable {incoming : IncomingMessage} {cc : RNCryptor.CommonCrypto} {world : MessageWorld}

section Pages
variable {l : List MessageDictionary}

theorem rtake_min (l : List MessageDictionary) (n : ℕ) : l.rtake (min l.length n) = l.rtake n := by
  unfold List.rtake
  congr 1
  omega

theorem rdrop_append_rtake (l : List MessageDictionary) (n : ℕ) : l.rdrop n ++ l.rtake n = l :=
  List.take_append_drop _ _

theorem rdrop_append_nextPage (s : ChatState JSQMessage) :
    s.loadedMessages.rdrop (min s.loadedMessages.length (s.loadedMessagesCount.toNat + 11)) ++
      s.nextPage = s.loadedMessages.rdrop s.loadedMessagesCount.toNat := by
  have hsplit := rdrop_append_rtake (s.loadedMessages.rdrop s.loadedMessagesCount.toNat) 11
  have hrdrop : (s.loadedMessages.rdrop s.loadedMessagesCount.toNat).rdrop 11 =
      s.loadedMessages.rdrop (min s.loadedMessages.length (s.loadedMessagesCount.toNat + 11)) := by
    simp only [List.rdrop, List.take_take, List.length_take]
    congr 1
    omega
  rw [hrdrop] at hsplit
  exact hsplit

end Pages

theorem openChat_background {JSQMessage : Type} {vc : ChatScreen JSQMessage}
    {docs : List MessageDocument} {s : OpenChat JSQMessage} (h : vc.openChat docs = .ok s) :
    s.background = .notIssued ∨ s.background = .issued := by
  obtain ⟨loadedMessages, -, h⟩ := bind_eq_ok h
  obtain ⟨s₁, -, h⟩ := bind_eq_ok h
  obtain ⟨s₂, -, h⟩ := bind_eq_ok h
  rw [← Except.ok.inj h]
  dsimp only
  split_ifs
  · exact .inr rfl
  · exact .inl rfl

section Events
variable {w : LiveChat} {s : OpenChat JSQMessage} {added : List MessageDictionary} (now : Date)

variable (incoming) in
theorem appDocuments (h : Readable cc world) :
    AppDocuments (world.collection incoming.currentId incoming.chatRoomId) :=
  (h.messageCollection incoming.currentId incoming.chatRoomId).appDocuments

theorem legitMessages_old_nil (loadedMessages : List MessageDictionary) :
    legitMessages (oldMessages loadedMessages []) = [] := by
  rw [List.sublist_nil.mp (oldMessages_sublist loadedMessages)]
  rfl

theorem Live.initialSnapshot (h : Live incoming cc w s added) (hdate : w.lastMessagesDate = none)
    (hbackground : w.atBackground = []) :
    ∃ s', (incoming.atTime now).chatScreen.openChat (w.documents incoming) = .ok s' ∧
      let w' := { w with
        chat := ⟨.ok s', w.chat.delivered ++ lastElevenMessages (w.documents incoming)⟩
        lastMessagesDate := some (LiChat.lastMessagesDate s'.chat.loadedMessages)
        atOpening := w.documents incoming }
      Live incoming cc w' s' [] ∧ Opened incoming cc w' s' := by
  have happ := appDocuments incoming h.readable
  obtain ⟨s', hopen, hkept⟩ := RowChat.openChat_kept incoming w.chat.delivered now happ
  obtain ⟨s'', hopen', hpages, hloaded, -, hcount, hobject, hheader⟩ := openChat_ok
    fun d hd hlegit => (happ d hd hlegit).2.showable (incoming.atTime now)
  obtain rfl : s' = s'' := Except.ok.inj (hopen.symm.trans hopen')
  have hdocuments : ∀ m ∈ s'.chat.loadedMessages, ∃ d ∈ w.documents incoming, d.data = m := by
    intro m hm
    obtain ⟨d, hd, hdata, -⟩ := mem_initialMessages.mp (hloaded ▸ hm)
    exact ⟨d, mem_of_mem_lastEleven hd, hdata⟩
  have hascending : Ascending MessageDictionary.dateString s'.chat.loadedMessages := by
    rw [hloaded]
    exact ascending_sorted_filter _
  -- before the first answer the listener has not run
  obtain ⟨hadded, -, -, -⟩ := h.unopened hdate
  refine ⟨s', hopen, ⟨h.readable, hkept, ?_, ?_, hascending, ⟨_, hcount, min_le_left _ _⟩, hheader,
    ?_, ?_, ?_, ?_, nofun⟩, ⟨?_, ?_, fun _ => hbackground, ?_, fun hback => ?_, fun hback => ?_,
    fun hback => ?_⟩⟩
  · intro m hm
    obtain ⟨d, hd, rfl⟩ := hdocuments m (by simpa using hm)
    exact (storedIn_documents h.readable hd).1
  · rw [List.append_nil, hloaded]
    exact nodup_legitMessages (nodup_lastEleven
      (h.readable.messageCollection incoming.currentId incoming.chatRoomId).nodup_messageId)
  · rw [hobject, hcount, Int.toNat_natCast, rtake_min]
    exact List.sublist_append_left _ _
  · intro m hm
    rw [List.append_nil] at hm
    rw [hobject, hcount, Int.toNat_natCast, ← rtake_min, rdrop_append_rtake]
    obtain ⟨d, hd, rfl⟩ := hdocuments m hm
    exact iff_of_true hm (storedIn_documents h.readable hd).2
  · rw [← h.listened, hadded]
  · intro date hlast
    refine ⟨fun m hm => ?_, fun m hm => absurd hm List.not_mem_nil⟩
    rw [← Option.some.inj hlast, LiChat.lastMessagesDate]
    have hne : s'.chat.loadedMessages ≠ [] := List.ne_nil_of_mem hm
    rw [List.getLast?_eq_some_getLast hne]
    exact hascending.le_getLast (List.getLast?_eq_some_getLast hne) hm
  · intro d hd
    dsimp only at hd
    rw [hbackground, List.append_nil] at hd
    exact (storedIn_documents h.readable hd).1
  · dsimp only
    rw [hbackground, legitMessages_old_nil, List.nil_append]
    exact hloaded
  · intro hback
    rw [Pages, hback] at hpages
    rw [hpages] at hheader
    have hall := of_decide_eq_false hheader.symm
    exact (congrArg List.length hloaded).symm.le.trans (by omega)
  -- no background query is answered with the first one
  all_goals
    rcases openChat_background hopen with hnot | hissued
    · cases hback.symm.trans hnot
    · cases hback.symm.trans hissued

theorem Live.initialFailed (h : Live incoming cc w s added) (hdate : w.lastMessagesDate = none)
    (hbackground : w.atBackground = []) :
    let s' : OpenChat JSQMessage := { s with chat := { s.chat with initialLoadComplete := true } }
    let w' := { w with
      chat := ⟨.ok s', w.chat.delivered ++ []⟩
      lastMessagesDate := some (LiChat.lastMessagesDate s'.chat.loadedMessages)
      atOpening := [] }
    Live incoming cc w' s' [] ∧ Opened incoming cc w' s' := by
  obtain ⟨rfl, hloaded, -, hback⟩ := h.unopened hdate
  refine ⟨⟨h.readable, ?_, h.stored, h.ids, h.ascending, h.count, h.header, h.shown, h.here,
    h.listened, fun date _ => ⟨fun m hm => ?_, fun m hm => absurd hm List.not_mem_nil⟩, nofun⟩,
    ⟨fun d hd => ?_, ?_, fun _ => hbackground, fun _ => Nat.zero_le _, fun hfailed => ?_,
      fun hcompleted => ?_, fun _ d hd => absurd hd List.not_mem_nil⟩⟩
  · simp only [List.append_nil]
    exact h.kept.samePages ⟨rfl, rfl, rfl, rfl, rfl, rfl⟩ h.kept.rows
  · rw [show s.chat.loadedMessages = [] from hloaded] at hm
    cases hm
  · dsimp only at hd
    rw [hbackground] at hd
    cases hd
  · dsimp only
    rw [hbackground, legitMessages_old_nil, hloaded]
    rfl
  · cases hback.symm.trans hfailed
  · cases hback.symm.trans hcompleted

theorem Live.backgroundFailed (h : Live incoming cc w s added) (hback : s.background = .issued) :
    Live incoming cc { w with
      chat := ⟨.ok { s with background := .failed }, w.chat.delivered ++ []⟩
      atBackground := [] } { s with background := .failed } added := by
  have hpages := h.kept.pages
  rw [Pages, hback] at hpages
  refine ⟨h.readable, ?_, h.stored, h.ids, h.ascending, h.count, h.header, h.shown, h.here,
    h.listened, h.dates, fun hdate => ?_⟩
  · simp only [List.append_nil]
    exact ⟨hpages.1, h.kept.loaded, h.kept.rows⟩
  · obtain ⟨-, -, -, hnot⟩ := h.unopened hdate
    cases hback.symm.trans hnot

theorem Live.header_of_issued (h : Live incoming cc w s added) (hback : s.background = .issued) :
    s.chat.showLoadEarlierMessagesHeader = true := by
  have hpages := h.kept.pages
  rw [Pages, hback] at hpages
  rw [h.header, hpages.2, hpages.1.loaded]
  rfl

theorem Opened.backgroundFailed (h : Opened incoming cc w s) (hlive : Live incoming cc w s added)
    (hback : s.background = .issued) :
    Opened incoming cc { w with
      chat := ⟨.ok { s with background := .failed }, w.chat.delivered ++ []⟩
      atBackground := [] } { s with background := .failed } := by
  have hwaiting : w.atBackground = [] := h.waiting (by simp [hback])
  exact
    { stored := hwaiting ▸ h.stored
      loaded := hwaiting ▸ h.loaded
      waiting := fun _ => rfl
      short := nofun
      failed := fun _ => hlive.header_of_issued hback
      asked := nofun
      older := nofun }

theorem Live.lt_of_mem_old (h : Live incoming cc w s added) (hdate : w.lastMessagesDate ≠ none)
    {d : MessageDocument} (hd : d ∈ oldMessages s.chat.loadedMessages (w.documents incoming)) :
    ∀ m ∈ s.chat.loadedMessages ++ added, d.dateString < m.dateString := by
  obtain ⟨-, first, hfirst, hlt⟩ := mem_oldMessages hd
  obtain ⟨date, hsome⟩ := Option.ne_none_iff_exists'.mp hdate
  obtain ⟨hloaded, hadded⟩ := h.dates date hsome
  intro m hm
  rcases List.mem_append.mp hm with hold | hnew
  · exact hlt.trans_le (h.ascending.head_le hfirst hold)
  · exact hlt.trans_le ((hloaded first (List.mem_of_head? hfirst)).trans (hadded m hnew).le)

theorem Live.backgroundSnapshot (h : Live incoming cc w s added)
    (hback : s.background = .issued) :
    let docs := oldMessages s.chat.loadedMessages (w.documents incoming)
    ∃ chat, oldMessagesLoaded docs s.chat = .ok chat ∧
      chat.loadedMessages = legitMessages docs ++ s.chat.loadedMessages ∧
      Live incoming cc { w with
        chat := ⟨.ok ⟨chat, .completed⟩, w.chat.delivered ++ docs⟩
        atBackground := w.documents incoming } ⟨chat, .completed⟩ added := by
  intro docs
  have hsublist : docs.Sublist (w.documents incoming) := oldMessages_sublist _
  have happ : AppDocuments docs := fun d hd =>
    appDocuments incoming h.readable d (hsublist.subset hd)
  have hpages := h.kept.pages
  rw [Pages, hback] at hpages
  have hlength : s.chat.loadedMessages.length = 11 := hpages.1.loaded
  have hdate : w.lastMessagesDate ≠ none := by
    intro hnone
    obtain ⟨-, -, -, hnot⟩ := h.unopened hnone
    cases hback.symm.trans hnot
  obtain ⟨chat, hchat, hkept⟩ := RowChat.background_kept h.kept hback happ
  obtain ⟨chat', hchat', -, hloaded, hcount, hobject, hheader⟩ :=
    oldMessagesLoaded_ok hpages.1 hpages.2 (fun m hm => (h.kept.loaded m hm).showable incoming)
      fun d hd hlegit => (happ d hd hlegit).2.showable incoming
  obtain rfl : chat = chat' := Except.ok.inj (hchat.symm.trans hchat')
  rw [hpages.2] at hcount
  have hten : s.chat.loadedMessagesCount.toNat = 10 := by rw [hpages.2]; rfl
  have hten' : chat.loadedMessagesCount.toNat = 10 := by rw [hcount]; rfl
  have hdocuments : ∀ m ∈ legitMessages docs, ∃ d ∈ docs, d.data = m := by
    intro m hm
    obtain ⟨d, hd, hdata, -⟩ := mem_legitMessages.mp hm
    exact ⟨d, hd, hdata⟩
  have hrdrop : chat.loadedMessages.rdrop 10 =
      legitMessages docs ++ s.chat.loadedMessages.rdrop 10 := by
    rw [hloaded, List.rdrop, List.rdrop, List.length_append, Nat.add_sub_assoc (by omega),
      List.take_length_add_append]
  have hrtake : chat.loadedMessages.rtake 10 = s.chat.loadedMessages.rtake 10 := by
    rw [hloaded, List.rtake, List.rtake, List.length_append, Nat.add_sub_assoc (by omega),
      List.drop_length_add_append]
  -- what the background query brings is stored, and older than all that is there
  have hstored : ∀ m ∈ legitMessages docs,
      (∃ x : WrittenMessage cc, StoredIn incoming w.world x m) ∧ ¬ Gone incoming w.world m := by
    intro m hm
    obtain ⟨d, hd, rfl⟩ := hdocuments m hm
    exact storedIn_documents h.readable (hsublist.subset hd)
  have hlt : ∀ m ∈ legitMessages docs, ∀ m' ∈ s.chat.loadedMessages ++ added,
      m.dateString < m'.dateString := by
    intro m hm
    obtain ⟨d, hd, rfl⟩ := hdocuments m hm
    exact h.lt_of_mem_old hdate hd
  refine ⟨chat, hchat, hloaded, h.readable, hkept, ?_, ?_, ?_, ⟨10, hcount, ?_⟩, ?_, ?_, ?_,
    h.listened, fun date hsome => ⟨?_, (h.dates date hsome).2⟩, fun hnone => absurd hnone hdate⟩
  · rw [hloaded, List.append_assoc]
    exact List.forall_mem_append.mpr ⟨fun m hm => (hstored m hm).1, h.stored⟩
  · rw [hloaded, List.append_assoc, List.map_append]
    have hnodup : ((legitMessages docs).map MessageDictionary.messageId).Nodup :=
      nodup_legitMessages ((h.readable.messageCollection incoming.currentId
        incoming.chatRoomId).nodup_messageId.sublist ((hsublist.map _).map _))
    refine List.nodup_append.mpr ⟨hnodup, h.ids, ?_⟩
    rintro _ hid _ hid' rfl
    obtain ⟨m, hm, hmid⟩ := List.mem_map.mp hid
    obtain ⟨m', hm', hmid'⟩ := List.mem_map.mp hid'
    obtain ⟨x, hx⟩ := (hstored m hm).1
    obtain ⟨x', hx'⟩ := h.stored m' hm'
    -- a message that is there already would be older than itself
    have hdate := hx.dateString_eq h.readable hx'.sent ((hmid.trans hmid'.symm).trans hx'.messageId)
    exact absurd (hlt m hm m' hm') (by rw [hdate, hx'.dateString]; exact lt_irrefl _)
  · rw [hloaded]
    exact List.pairwise_append.mpr ⟨ascending_sorted_filter _, h.ascending, fun m hm m' hm' =>
      (hlt m hm m' (List.mem_append_left _ hm')).le⟩
  · rw [hloaded, List.length_append]
    omega
  · rw [hheader, h.header, hcount, hpages.2, hloaded, List.length_append]
    simp
    omega
  · dsimp only
    rw [hobject, hten', hrtake]
    have hshown := h.shown
    rwa [hten] at hshown
  · intro m hm
    dsimp only at hm ⊢
    rw [hobject, hten', hrdrop, List.append_assoc, List.mem_append]
    have hhere := h.here m
    rw [hten] at hhere
    rw [hloaded, List.append_assoc, List.mem_append] at hm
    constructor
    · -- the new messages wait to be paged in; for the others nothing changes
      rintro (hold | hrest)
      · exact (hstored m hold).2
      · refine (hhere ?_).mp hrest
        have hshown := h.shown
        rw [hten] at hshown
        have hsub := hshown.append_left (s.chat.loadedMessages.rdrop 10)
        rw [← List.append_assoc, rdrop_append_rtake] at hsub
        exact hsub.subset hrest
    · intro hgone
      exact hm.imp_right fun hmem => (hhere hmem).mpr hgone
  · rw [hloaded]
    obtain ⟨first, hfirst⟩ : ∃ first, s.chat.loadedMessages.head? = some first :=
      ⟨_, List.head?_eq_some_head (List.ne_nil_of_length_pos (by omega))⟩
    have hold := (h.dates date hsome).1
    refine List.forall_mem_append.mpr ⟨fun m hm => ?_, hold⟩
    have hmem := List.mem_of_head? hfirst
    exact (hlt m hm first (List.mem_append_left _ hmem)).le.trans (hold first hmem)

theorem Opened.backgroundSnapshot (h : Opened incoming cc w s) (hlive : Live incoming cc w s added)
    (hback : s.background = .issued) {chat : ChatState JSQMessage}
    {delivered : List MessageDocument} (hloaded : chat.loadedMessages =
      legitMessages (oldMessages s.chat.loadedMessages (w.documents incoming)) ++
        s.chat.loadedMessages) :
    Opened incoming cc { w with
      chat := ⟨.ok ⟨chat, .completed⟩, delivered⟩
      atBackground := w.documents incoming } ⟨chat, .completed⟩ := by
  have hinitial : s.chat.loadedMessages = initialMessages w.atOpening := by
    rw [h.loaded, h.waiting (by simp [hback]), legitMessages_old_nil, List.nil_append]
  have hpages := hlive.kept.pages
  rw [Pages, hback] at hpages
  refine ⟨fun d hd => ?_, hinitial ▸ hloaded, fun hnot => absurd rfl hnot, fun hback => ?_,
    fun hback => ?_, fun _ => ?_, fun _ d hd => or_iff_not_imp_left.mpr fun hgone => ?_⟩
  · rcases List.mem_append.mp hd with hold | hnew
    · exact h.stored d (List.mem_append_left _ hold)
    · exact (storedIn_documents hlive.readable hnew).1
  · cases hback
  · cases hback
  · rw [← hinitial, hpages.1.loaded]
    decide
  · obtain ⟨x, hx⟩ := h.stored d (List.mem_append_left _ hd)
    obtain ⟨d', hd', hcopy⟩ := hlive.readable.mem_collection hx.sent
      ((hx.has_iff hlive.readable.consistent).mpr hgone)
    have hid : d'.data.messageId = d.data.messageId := by
      rw [hx.messageId, hcopy.messageId, hcopy.1]
    exact List.mem_map.mpr ⟨d', hd', hid⟩

theorem Live.addedMessage (h : Live incoming cc w s added) {date : String}
    (hdate : w.lastMessagesDate = some date) {d : MessageDocument}
    (hd : d ∈ isGreaterThan date (w.documents incoming)) (hnew : d.documentID ∉ w.listened) :
    ∃ chat, (incoming.atTime now).chatScreen.addedMessage d.data s.chat = .ok chat ∧
      SamePages s.chat chat ∧
      Live incoming cc { w with
        chat := ⟨.ok { s with chat := chat }, w.chat.delivered ++ [d]⟩
        listened := w.listened ++ [d.documentID] } { s with chat := chat } (added ++ [d.data]) := by
  obtain ⟨hmem, hlt⟩ := List.mem_filter.mp hd
  have hlt : date < d.dateString := of_decide_eq_true hlt
  have hdocument : d ∈ w.documents incoming := List.mem_of_mem_filter hmem
  have happ : AppDocuments [d] := by
    intro d' hd'
    obtain rfl := List.mem_singleton.mp hd'
    exact appDocuments incoming h.readable d' hdocument
  have hlegit : d.data.legit := h.readable.legit d hdocument
  obtain ⟨⟨x, hx⟩, hgone⟩ := storedIn_documents h.readable hdocument
  have hid : d.data.messageId = some d.documentID :=
    (appDocuments incoming h.readable d hdocument hlegit).1
  obtain ⟨chat, hchat, hkept⟩ := RowChat.added_kept now h.kept happ
  obtain ⟨chat', hchat', hobject⟩ := addedMessage_ok
    (fun hlegit => (happ d List.mem_cons_self hlegit).2.showable (incoming.atTime now)) s.chat
  obtain rfl : chat = chat' := Except.ok.inj (hchat.symm.trans hchat')
  have hsame := (incoming.atTime now).chatScreen.addedMessage_outcome d.data s.chat
  rw [hchat] at hsame
  have hsame : SamePages s.chat chat := hsame
  rw [if_pos hlegit] at hobject
  refine ⟨chat, hchat, hsame, h.readable, hkept, ?_, ?_, hsame.loaded ▸ h.ascending, ?_, ?_, ?_, ?_,
    ?_, ?_, fun hnone => ?_⟩
  · dsimp only
    rw [hsame.loaded, ← List.append_assoc]
    refine List.forall_mem_append.mpr ⟨h.stored, fun m hm => ?_⟩
    obtain rfl := List.mem_singleton.mp hm
    exact ⟨x, hx⟩
  · dsimp only
    rw [hsame.loaded, ← List.append_assoc, List.map_append]
    refine List.nodup_append.mpr ⟨h.ids, List.nodup_singleton _, ?_⟩
    rintro _ hold _ hlast rfl
    obtain ⟨m, hm, hmid⟩ := List.mem_map.mp hold
    have hmid : m.messageId = d.data.messageId := hmid.trans (List.mem_singleton.mp hlast)
    rcases List.mem_append.mp hm with hloaded | hadded
    · -- the message would be newer than itself
      obtain ⟨x', hx'⟩ := h.stored m hm
      have hsame := hx'.dateString_eq h.readable hx.sent (hmid.trans hx.messageId)
      have hle := (h.dates date hdate).1 m hloaded
      rw [hsame, ← hx.dateString] at hle
      exact absurd hlt (not_lt.mpr hle)
    · -- the listener would have reported it before
      have hlistened : d.data.messageId ∈ w.listened.map some := by
        rw [← h.listened, ← hmid]
        exact List.mem_map_of_mem hadded
      rw [hid] at hlistened
      obtain ⟨_, hmem, heq⟩ := List.mem_map.mp hlistened
      exact hnew (Option.some.inj heq ▸ hmem)
  · dsimp only
    rw [hsame.count, hsame.loaded]
    exact h.count
  · dsimp only
    rw [hsame.count, hsame.loaded, hsame.header]
    exact h.header
  · dsimp only
    rw [hobject, hsame.count, hsame.loaded, ← List.append_assoc]
    exact h.shown.append (List.Sublist.refl _)
  · intro m hm
    dsimp only at hm ⊢
    rw [hsame.loaded, ← List.append_assoc, List.mem_append] at hm
    rw [hobject, hsame.count, hsame.loaded, ← List.append_assoc, List.mem_append]
    rcases hm with hold | hlast
    · rw [h.here m hold]
      refine or_iff_left_of_imp fun hlast => ?_
      rw [List.mem_singleton.mp hlast]
      exact hgone
    · rw [List.mem_singleton.mp hlast]
      exact iff_of_true (.inr List.mem_cons_self) hgone
  · rw [List.map_append, List.map_append, h.listened, List.map_singleton, List.map_singleton, hid]
  · intro date' hdate'
    obtain rfl : date = date' := Option.some.inj (hdate.symm.trans hdate')
    obtain ⟨hloaded, hadded⟩ := h.dates date hdate
    refine ⟨hsame.loaded ▸ hloaded, List.forall_mem_append.mpr ⟨hadded, fun m hm => ?_⟩⟩
    rw [List.mem_singleton.mp hm]
    exact hlt
  · exact absurd (hdate.symm.trans hnone) (Option.some_ne_none _)

theorem Live.modified (h : Live incoming cc w s added) {d : MessageDocument}
    (hd : d ∈ w.documents incoming) :
    ChatScreen.updateMessage d.data s.chat = .ok s.chat ∧
      Live incoming cc { w with chat := ⟨.ok s, w.chat.delivered ++ [d]⟩ } s added := by
  have hid := (appDocuments incoming h.readable d hd (h.readable.legit d hd)).1
  rcases RowChat.modified_kept h.kept d with ⟨hok, hkept⟩ | ⟨-, hnone⟩
  · exact ⟨hok, h.readable, hkept, h.stored, h.ids, h.ascending, h.count, h.header, h.shown, h.here,
      h.listened, h.dates, h.unopened⟩
  · rw [hid] at hnone
    cases hnone

theorem Live.tap (h : Live incoming cc w s added) (hback : s.background = .completed)
    (hheader : s.chat.showLoadEarlierMessagesHeader = true) :
    ∃ chat, (incoming.atTime now).chatScreen.loadMoreMessages s.chat.maxMessageNumber
        s.chat.minMessageNumber s.chat = .ok chat ∧
      chat.loadedMessages = s.chat.loadedMessages ∧
      Live incoming cc { w with chat := ⟨.ok { s with chat := chat }, w.chat.delivered ++ []⟩ }
        { s with chat := chat } added := by
  have hpages := h.kept.pages
  rw [Pages, hback] at hpages
  obtain ⟨count, hcount, hlt⟩ := exists_count hpages hheader
  obtain ⟨chat, hchat, hkept⟩ := RowChat.tap_kept now h.kept hback hheader
  obtain ⟨chat', hchat', hloaded, hcount', hobject, hheader'⟩ :=
    loadMoreMessages_ok s.chat.maxMessageNumber hcount hlt (nextBounds hpages hcount)
      fun m hm => (h.kept.loaded m hm).showable (incoming.atTime now)
  obtain rfl : chat = chat' := Except.ok.inj (hchat.symm.trans hchat')
  have htoNat : s.chat.loadedMessagesCount.toNat = count := by rw [hcount, Int.toNat_natCast]
  have hpage := rdrop_append_nextPage s.chat
  rw [htoNat] at hpage
  -- the page and what is shown are the last messages again
  have hlater : s.chat.nextPage ++ s.chat.loadedMessages.rtake count =
      s.chat.loadedMessages.rtake (count + 11) := by
    rw [ChatState.nextPage, htoNat]
    exact rtake_take_append_rtake _ _ _
  refine ⟨chat, hchat, hloaded, h.readable, ?_, ?_, ?_, ?_, ?_, hheader', ?_, ?_, h.listened, ?_,
    ?_⟩
  · rw [List.append_nil]
    exact hkept
  · dsimp only
    rw [hloaded]
    exact h.stored
  · dsimp only
    rw [hloaded]
    exact h.ids
  · exact hloaded ▸ h.ascending
  · exact ⟨_, hcount', by rw [hloaded]; exact min_le_left _ _⟩
  · dsimp only
    rw [hobject, hcount', hloaded, Int.toNat_natCast, rtake_min, ← hlater, List.append_assoc]
    have hshown := h.shown
    rw [htoNat] at hshown
    exact hshown.append_left _
  · dsimp only
    rw [hobject, hcount', hloaded, Int.toNat_natCast, ← List.append_assoc, hpage, ← htoNat]
    exact h.here
  · dsimp only
    rw [hloaded]
    exact h.dates
  · dsimp only
    rw [hloaded]
    exact h.unopened

theorem Live.nodup_rows (h : Live incoming cc w s added) :
    ((s.chat.loadedMessages.rdrop s.chat.loadedMessagesCount.toNat ++ s.chat.objectMessages).map
      MessageDictionary.messageId).Nodup ∧
    s.chat.loadedMessages.rdrop s.chat.loadedMessagesCount.toNat ++ s.chat.objectMessages ⊆
      s.chat.loadedMessages ++ added := by
  have hsub := h.shown.append_left
    (s.chat.loadedMessages.rdrop s.chat.loadedMessagesCount.toNat)
  rw [← List.append_assoc, rdrop_append_rtake] at hsub
  exact ⟨h.ids.sublist (hsub.map _), hsub.subset⟩

theorem Live.deleted (h : Live incoming cc w s added) {row : ℕ}
    (hrow : row < s.chat.messages.length) :
    ∃ chat messageId world', ChatScreen.didDeleteMessageAt row s.chat = .ok chat ∧
      deletedAt incoming row (.ok s) =
        some ⟨incoming.currentId, incoming.chatRoomId, messageId⟩ ∧
      w.world.step (.deleteMessage incoming.currentId messageId incoming.chatRoomId) =
        some world' ∧
      chat.loadedMessages = s.chat.loadedMessages ∧
      chat.showLoadEarlierMessagesHeader = s.chat.showLoadEarlierMessagesHeader ∧
      Live incoming cc { w with
        world := world'
        chat := ⟨.ok { s with chat := chat }, w.chat.delivered ++ []⟩ } { s with chat := chat }
          added := by
  obtain ⟨m, message, hm, -, ⟨d, -, rfl, hid, -⟩, -⟩ := Rows.forall₂_getElem? h.kept.rows hrow
  have hdelete := incoming.didDeleteMessageAt_ok hm hid
  obtain ⟨chat, hchat, hkept⟩ := RowChat.delete_kept h.kept hrow
  obtain rfl : chat = { s.chat with
      objectMessages := s.chat.objectMessages.eraseIdx row
      messages := s.chat.messages.eraseIdx row } := by
    rw [← incoming.map_didDeleteMessageAt, hdelete] at hchat
    exact (Except.ok.inj hchat).symm
  obtain ⟨hnodup, hsub⟩ := h.nodup_rows
  have hshown : d.data ∈ s.chat.loadedMessages.rdrop s.chat.loadedMessagesCount.toNat ++
      s.chat.objectMessages := List.mem_append_right _ (List.mem_of_getElem? hm)
  obtain ⟨x, hx⟩ := h.stored d.data (hsub hshown)
  have hidx : x.messageId = d.documentID := Option.some.inj (hx.messageId.symm.trans hid)
  have hgone : ¬ Gone incoming w.world d.data := (h.here _ (hsub hshown)).mp hshown
  have hhas := (hx.has_iff h.readable.consistent).mpr hgone
  have hpath := hx.path
  rw [hidx] at hpath
  obtain ⟨world', hstep⟩ : ∃ world', w.world.step
      (.deleteMessage incoming.currentId d.documentID incoming.chatRoomId) = some world' := by
    have hsome := hhas.2
    rw [hpath] at hsome
    exact ⟨_, if_pos hsome⟩
  have hdeleted : world'.deleted =
      w.world.deleted ++ [⟨incoming.currentId, incoming.chatRoomId, d.documentID⟩] := by
    simp only [MessageWorld.step, Option.ite_none_right_eq_some, Option.some.injEq] at hstep
    rw [← hstep.2]
  -- only the message of the row goes
  have hgone' : ∀ m', Gone incoming world' m' ↔
      Gone incoming w.world m' ∨ m'.messageId = d.data.messageId := by
    intro m'
    simp only [Gone, hdeleted, hid, List.mem_append, List.mem_singleton, MessagePath.mk.injEq,
      true_and, and_or_left, exists_or]
    refine or_congr_right ⟨?_, fun heq => ⟨_, heq, rfl⟩⟩
    rintro ⟨_, heq, rfl⟩
    exact heq
  refine ⟨_, d.documentID, world', hchat, ?_, hstep, rfl, rfl,
    h.readable.step (show Writes cc (.deleteMessage _ _ _) from trivial) hstep, ?_, fun m hm => ?_,
    h.ids, h.ascending, h.count, h.header, ?_, fun m' hm' => ?_, h.listened, h.dates, h.unopened⟩
  · simp only [deletedAt, hdelete]
    rfl
  · rw [List.append_nil]
    exact hkept
  · obtain ⟨x, hx⟩ := h.stored m hm
    exact ⟨x, hx.mono (sent_subset hstep) fun _ hreceived =>
      hreceived.step h.readable.consistent hstep⟩
  · exact (List.eraseIdx_sublist _ _).trans h.shown
  · have hobject := Rows.eraseIdx_eq_filter
      (hnodup.sublist ((List.sublist_append_right _ _).map _)) hm
    dsimp only at hm' ⊢
    rw [hgone', hobject, not_or, ← h.here m' hm', List.mem_append, List.mem_append, List.mem_filter]
    -- it is not among those yet to be paged in
    have hapart : m' ∈ s.chat.loadedMessages.rdrop s.chat.loadedMessagesCount.toNat →
        m'.messageId ≠ d.data.messageId := by
      rw [List.map_append, List.nodup_append] at hnodup
      exact fun hrest => hnodup.2.2 _ (List.mem_map_of_mem hrest) _
        (List.mem_map_of_mem (List.mem_of_getElem? hm))
    simp only [decide_eq_true_eq]
    tauto

end Events

end LiveChat

end LiChat
