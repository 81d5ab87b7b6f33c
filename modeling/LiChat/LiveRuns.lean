import LiChat.LiveEvents

/-!
# The rows of an open chat

What is on the screen after any run, and what is missing once nothing more comes.
-/

namespace LiChat
open ChatScreen Windows WriteQueues MessageWorld

namespace LiveChat
variable {incoming : IncomingMessage} {membersToPush : List Uid} {cc : RNCryptor.CommonCrypto}
  {world : MessageWorld} {x : WrittenMessage cc} {m : MessageDictionary}

section Runs
variable {w w' : LiveChat} {s : OpenChat JSQMessage} {added : List MessageDictionary} {now : Date}

theorem onScreen_eq_some {e : RowEvent} (h : w.onScreen incoming membersToPush now e = some w') :
    ∃ s screen ids world, w.chat.screen = .ok s ∧
      RowChat.screenStep (incoming.atTime now).chatScreen s e = some screen ∧
      updateMessages incoming membersToPush now ids w.world = some world ∧
      w' = { w with world := world, chat := ⟨screen, w.chat.delivered ++ e.documents⟩ } := by
  obtain ⟨chat, hchat, h⟩ := Option.bind_eq_some_iff.mp h
  obtain ⟨world, hworld, h⟩ := Option.bind_eq_some_iff.mp h
  obtain rfl := Option.some.inj h
  obtain ⟨world₀, ⟨screen₀, delivered⟩, lastMessagesDate, listened, atOpening⟩ := w
  cases screen₀ with
  | error t => cases hchat
  | ok s =>
    obtain ⟨screen, hscreen, rfl⟩ := Option.map_eq_some_iff.mp hchat
    exact ⟨s, screen, _, world, rfl, hscreen, hworld, rfl⟩

variable (cc incoming) in
/-- Messages of the app are written, and the device deletes those of the chat on its screen. -/
def OfApp : LiveAction → Prop
  | .device a => Writes cc a ∧ ¬ Deletes incoming a
  | _ => True

variable (incoming cc) in
/-- The chat is open, and nothing has trapped. -/
def InStep (w : LiveChat) : Prop :=
  ∃ s added, w.chat.screen = .ok s ∧ Live incoming cc w s added ∧ Opened incoming cc w s

theorem inStep_of_screen {s' : OpenChat JSQMessage} {added' : List MessageDictionary}
    {ids : List String} (hscreen : w'.chat.screen = .ok s') (hlive : Live incoming cc w' s' added')
    (hopened : Opened incoming cc w' s')
    (hworld : updateMessages incoming membersToPush now ids w'.world = some world) :
    InStep incoming cc { w' with world := world } := by
  obtain ⟨hreadable, hgoes⟩ := goesOn_updateMessages hlive.readable hworld
  exact ⟨s', added', hscreen, hlive.goesOn hreadable hgoes, hopened.goesOn hgoes⟩

theorem Live.tap_early (h : Live incoming cc w s added) (hscreen : w.chat.screen = .ok s)
    (hback : s.background ≠ .completed)
    (hs : w.step incoming membersToPush (now, .didTapLoadEarlierMessagesButton) = some w') :
    ∃ t, w'.chat.screen = .error t := by
  obtain ⟨s₀, screen, ids, world, hs₀, hstep, hworld, rfl⟩ := onScreen_eq_some hs
  obtain rfl : s₀ = s := Except.ok.inj (hs₀.symm.trans hscreen)
  simp only [RowChat.screenStep, ChatScreen.step, Option.ite_none_right_eq_some] at hstep
  obtain ⟨hheader, hstep⟩ := hstep
  have hfirst := RowChat.firstPage_of_header h.kept hback hheader
  rw [(incoming.atTime now).chatScreen.loadMoreMessages_firstPage hfirst] at hstep
  obtain rfl := Option.some.inj hstep
  exact ⟨_, rfl⟩

theorem step_inStep (hscreen : w.chat.screen = .ok s) (h : Live incoming cc w s added)
    (ho : Opened incoming cc w s) {a : LiveAction} (ha : OfApp incoming cc a)
    (hs : w.step incoming membersToPush (now, a) = some w') :
    InStep incoming cc w' ∨ (∃ t, w'.chat.screen = .error t) ∧
      a = .didTapLoadEarlierMessagesButton ∧ s.background ≠ .completed := by
  have hsame : ∀ s₀, w.chat.screen = .ok s₀ → s₀ = s := fun s₀ h₀ =>
    Except.ok.inj (h₀.symm.trans hscreen)
  cases a with
  | device a =>
    obtain ⟨world, hworld, rfl⟩ := Option.map_eq_some_iff.mp hs
    have hgoes := goesOn_step h.readable.consistent ha.2 hworld
    exact .inl ⟨s, added, hscreen, h.goesOn (h.readable.step ha.1 hworld) hgoes, ho.goesOn hgoes⟩
  | initialSnapshot succeeds =>
    simp only [step, Option.ite_none_left_eq_some] at hs
    obtain ⟨hdate, hs⟩ := hs
    have hdate : w.lastMessagesDate = none := Option.not_isSome_iff_eq_none.mp hdate
    obtain ⟨w₁, hon, hs⟩ := Option.bind_eq_some_iff.mp hs
    obtain rfl := Option.some.inj hs
    obtain ⟨s₀, screen, ids, world, hs₀, hstep, hworld, rfl⟩ := onScreen_eq_some hon
    obtain rfl := hsame s₀ hs₀
    simp only [RowChat.screenStep, Option.ite_none_left_eq_some] at hstep
    have hbackground : w.atBackground = [] := by
      obtain ⟨-, -, -, hback⟩ := h.unopened hdate
      exact ho.waiting (by simp [hback])
    cases succeeds with
    | true =>
      obtain ⟨s', hopen, hlive, hopened⟩ := h.initialSnapshot now hdate hbackground
      have hok : .ok s' = screen := hopen.symm.trans (Option.some.inj hstep.2)
      subst hok
      exact .inl (inStep_of_screen rfl hlive hopened hworld)
    | false =>
      obtain ⟨hlive, hopened⟩ := h.initialFailed hdate hbackground
      obtain rfl := Option.some.inj hstep.2
      exact .inl (inStep_of_screen rfl hlive hopened hworld)
  | backgroundSnapshot succeeds =>
    obtain ⟨w₁, hon, hs⟩ := Option.bind_eq_some_iff.mp hs
    obtain rfl := Option.some.inj hs
    obtain ⟨s₀, screen, ids, world, hs₀, hstep, hworld, rfl⟩ := onScreen_eq_some hon
    obtain rfl := hsame s₀ hs₀
    simp only [RowChat.screenStep, ChatScreen.step, Option.ite_none_right_eq_some] at hstep
    obtain ⟨hback, hstep⟩ := hstep
    cases succeeds with
    | true =>
      obtain ⟨chat, hchat, hloaded, hlive⟩ := h.backgroundSnapshot hback
      simp only [hscreen, loadedIn, if_true] at hstep ⊢
      rw [hchat] at hstep
      obtain rfl := Option.some.inj hstep
      exact .inl (inStep_of_screen rfl hlive (ho.backgroundSnapshot h hback hloaded) hworld)
    | false =>
      obtain rfl := Option.some.inj hstep
      exact .inl (inStep_of_screen rfl (h.backgroundFailed hback)
        (ho.backgroundFailed h hback) hworld)
  | added documentID =>
    obtain ⟨date, hdate, hs⟩ := Option.bind_eq_some_iff.mp hs
    obtain ⟨d, hd, hs⟩ := Option.bind_eq_some_iff.mp hs
    simp only [Option.ite_none_left_eq_some] at hs
    obtain ⟨hnew, hs⟩ := hs
    obtain ⟨w₁, hon, hs⟩ := Option.bind_eq_some_iff.mp hs
    obtain rfl := Option.some.inj hs
    obtain ⟨s₀, screen, ids, world, hs₀, hstep, hworld, rfl⟩ := onScreen_eq_some hon
    obtain rfl := hsame s₀ hs₀
    obtain rfl : d.documentID = documentID := by simpa using List.find?_some hd
    obtain ⟨chat, hchat, hpages, hlive⟩ :=
      h.addedMessage now hdate (List.mem_of_find?_eq_some hd) hnew
    simp only [RowChat.screenStep, ChatScreen.step, Option.ite_none_right_eq_some] at hstep
    rw [hchat] at hstep
    obtain rfl := Option.some.inj hstep.2
    refine .inl (inStep_of_screen rfl hlive ?_ hworld)
    exact ho.of_loaded rfl rfl hpages.loaded rfl (fun _ => hpages.header) (List.Subset.refl _)
      (fun _ h => h) fun _ h => h
  | modified documentID =>
    obtain ⟨d, hd, hs⟩ := Option.bind_eq_some_iff.mp hs
    obtain ⟨s₀, screen, ids, world, hs₀, hstep, hworld, rfl⟩ := onScreen_eq_some hs
    obtain rfl := hsame s₀ hs₀
    obtain ⟨hok, hlive⟩ := h.modified (List.mem_of_find?_eq_some hd)
    simp only [RowChat.screenStep, hok] at hstep
    obtain rfl := Option.some.inj hstep
    refine .inl (inStep_of_screen rfl hlive ?_ hworld)
    exact ho.of_loaded rfl rfl rfl rfl (fun _ => rfl) (List.Subset.refl _)
      (fun _ h => h) fun _ h => h
  | didTapLoadEarlierMessagesButton =>
    by_cases hback : s.background = .completed
    · obtain ⟨s₀, screen, ids, world, hs₀, hstep, hworld, rfl⟩ := onScreen_eq_some hs
      obtain rfl := hsame s₀ hs₀
      simp only [RowChat.screenStep, ChatScreen.step, Option.ite_none_right_eq_some] at hstep
      obtain ⟨hheader, hstep⟩ := hstep
      obtain ⟨chat, hchat, hloaded, hlive⟩ := h.tap now hback hheader
      rw [hchat] at hstep
      obtain rfl := Option.some.inj hstep
      refine .inl (inStep_of_screen rfl hlive ?_ hworld)
      refine ho.of_loaded rfl rfl hloaded rfl (fun hfailed => ?_) (List.Subset.refl _)
        (fun _ h => h) fun _ h => h
      cases hback.symm.trans hfailed
    · exact .inr ⟨h.tap_early hscreen hback hs, rfl, hback⟩
  | didDeleteMessageAt row =>
    obtain ⟨w₁, hon, hs⟩ := Option.bind_eq_some_iff.mp hs
    obtain ⟨s₀, screen, ids, world, hs₀, hstep, hworld, rfl⟩ := onScreen_eq_some hon
    obtain rfl := hsame s₀ hs₀
    simp only [RowChat.screenStep, Option.ite_none_right_eq_some] at hstep
    obtain ⟨hrow, hstep⟩ := hstep
    obtain ⟨hreadable, hgoes⟩ := goesOn_updateMessages h.readable hworld
    -- the calls change no copy, so that they may as well come before the deletion
    obtain ⟨chat, messageId, world', hchat, hpath, hdelete, hloaded, hheader, hlive⟩ :=
      (h.goesOn hreadable hgoes).deleted hrow
    rw [hchat] at hstep
    obtain rfl := Option.some.inj hstep
    rw [hscreen, hpath] at hs
    dsimp only at hs hdelete
    rw [hdelete] at hs
    obtain rfl := Option.some.inj hs
    refine .inl ⟨_, added, rfl, hlive, ?_⟩
    exact (ho.goesOn hgoes).of_loaded rfl rfl hloaded rfl (fun _ => hheader)
      (sent_subset hdelete) (fun _ hreceived => hreceived.step hreadable.consistent hdelete)
      fun m hm => hm.imp fun _ h => ⟨h.1, deleted_subset hdelete h.2⟩

theorem inStep_opening (h : Readable cc world) : InStep incoming cc (opening world) :=
  ⟨⟨{}, .notIssued⟩, [], rfl,
    { readable := h
      kept := RowChat.opening_kept
      stored := fun _ hm => absurd hm List.not_mem_nil
      ids := List.nodup_nil
      ascending := List.Pairwise.nil
      count := ⟨0, rfl, le_rfl⟩
      header := rfl
      shown := List.Sublist.refl _
      here := fun _ hm => absurd hm List.not_mem_nil
      listened := rfl
      dates := nofun
      unopened := fun _ => ⟨rfl, rfl, rfl, rfl⟩ },
    { stored := fun _ hd => absurd hd List.not_mem_nil
      loaded := rfl
      waiting := fun _ => rfl
      short := fun _ => Nat.zero_le _
      failed := nofun
      asked := nofun
      older := nofun }⟩

/-- After a trap the other devices go on. -/
theorem step_error {e : Date × LiveAction} {t : Trap} (h : w.chat.screen = .error t)
    (hs : w.step incoming membersToPush e = some w') : w'.chat.screen = .error t := by
  have hnone : ∀ now e w', w.onScreen incoming membersToPush now e ≠ some w' := by
    intro now e w' hon
    obtain ⟨s, -, -, -, hok, -⟩ := onScreen_eq_some hon
    cases h.symm.trans hok
  obtain ⟨now, a⟩ := e
  cases a with
  | device a =>
    obtain ⟨world, -, rfl⟩ := Option.map_eq_some_iff.mp hs
    exact h
  | initialSnapshot succeeds =>
    simp only [step, Option.ite_none_left_eq_some] at hs
    obtain ⟨w₁, hon, -⟩ := Option.bind_eq_some_iff.mp hs.2
    exact absurd hon (hnone _ _ _)
  | backgroundSnapshot succeeds =>
    obtain ⟨w₁, hon, -⟩ := Option.bind_eq_some_iff.mp hs
    exact absurd hon (hnone _ _ _)
  | added documentID =>
    obtain ⟨date, -, hs⟩ := Option.bind_eq_some_iff.mp hs
    obtain ⟨d, -, hs⟩ := Option.bind_eq_some_iff.mp hs
    simp only [Option.ite_none_left_eq_some] at hs
    obtain ⟨w₁, hon, -⟩ := Option.bind_eq_some_iff.mp hs.2
    exact absurd hon (hnone _ _ _)
  | modified documentID =>
    obtain ⟨d, -, hs⟩ := Option.bind_eq_some_iff.mp hs
    exact absurd hs (hnone _ _ _)
  | didTapLoadEarlierMessagesButton => exact absurd hs (hnone _ _ _)
  | didDeleteMessageAt row =>
    obtain ⟨w₁, hon, -⟩ := Option.bind_eq_some_iff.mp hs
    exact absurd hon (hnone _ _ _)

variable (incoming membersToPush) in
/-- The run has come to a tap on the header before the background query has been answered. -/
def TappedEarly (world : MessageWorld) (events : List (Date × LiveAction)) : Prop :=
  ∃ before now w₀ s₀, before ++ [(now, .didTapLoadEarlierMessagesButton)] <+: events ∧
    Runs.exec (step incoming membersToPush) (opening world) before = some w₀ ∧
    w₀.chat.screen = .ok s₀ ∧ s₀.background ≠ .completed

theorem exec_inStep (h : Readable cc world) (events : List (Date × LiveAction))
    (hevents : ∀ e ∈ events, OfApp incoming cc e.2)
    (hrun : Runs.exec (step incoming membersToPush) (opening world) events = some w) :
    InStep incoming cc w ∨
      (∃ t, w.chat.screen = .error t) ∧ TappedEarly incoming membersToPush world events := by
  induction events using List.reverseRecOn generalizing w with
  | nil =>
    obtain rfl := Option.some.inj hrun
    exact .inl (inStep_opening h)
  | append_singleton before e ih =>
    rw [Runs.exec_append, Option.bind_eq_some_iff] at hrun
    obtain ⟨w₀, hw₀, hlast⟩ := hrun
    rw [Runs.exec_cons, Option.bind_eq_some_iff] at hlast
    obtain ⟨w', hstep, hw'⟩ := hlast
    obtain rfl := Option.some.inj hw'
    rcases ih (fun a ha => hevents a (List.mem_append_left _ ha)) hw₀ with
      ⟨s, added, hscreen, hlive, hopened⟩ | ⟨⟨t, ht⟩, hearly⟩
    · obtain ⟨now, a⟩ := e
      rcases step_inStep hscreen hlive hopened (hevents (now, a) (by simp)) hstep with
        hok | ⟨htrap, rfl, hback⟩
      · exact .inl hok
      · exact .inr ⟨htrap, before, now, w₀, s, List.prefix_refl _, hw₀, hscreen, hback⟩
    · obtain ⟨early, now, w₁, s₁, hprefix, hrest⟩ := hearly
      exact .inr ⟨⟨t, step_error ht hstep⟩, early, now, w₁, s₁,
        hprefix.trans (List.prefix_append _ _), hrest⟩

theorem exec_error {events : List (Date × LiveAction)} {t : Trap}
    (h : w.chat.screen = .error t)
    (hrun : Runs.exec (step incoming membersToPush) w events = some w') :
    w'.chat.screen = .error t :=
  (Runs.always_of_step (I := fun w => w.chat.screen = .error t)
    (fun _ _ _ h hs => step_error h hs) h events).last hrun

theorem trapped_iff (h : Readable cc world) (events : List (Date × LiveAction))
    (hevents : ∀ e ∈ events, OfApp incoming cc e.2)
    (hrun : Runs.exec (step incoming membersToPush) (opening world) events = some w) :
    (∃ t, w.chat.screen = .error t) ↔ TappedEarly incoming membersToPush world events := by
  constructor
  · rintro ⟨t, ht⟩
    rcases exec_inStep h events hevents hrun with ⟨s, added, hscreen, -⟩ | ⟨-, hearly⟩
    · cases ht.symm.trans hscreen
    · exact hearly
  · rintro ⟨before, now, w₀, s₀, ⟨rest, rfl⟩, hw₀, hscreen, hback⟩
    rw [List.append_assoc, Runs.exec_append, hw₀, Option.bind_some, List.singleton_append,
      Runs.exec_cons, Option.bind_eq_some_iff] at hrun
    obtain ⟨w₁, hstep, hrest⟩ := hrun
    have hbefore : ∀ e ∈ before, OfApp incoming cc e.2 := fun e he =>
      hevents e (List.mem_append_left _ (List.mem_append_left _ he))
    rcases exec_inStep h before hbefore hw₀ with ⟨s, added, hok, hlive, -⟩ | ⟨⟨t, ht⟩, -⟩
    · obtain rfl : s₀ = s := Except.ok.inj (hscreen.symm.trans hok)
      obtain ⟨t, ht⟩ := hlive.tap_early hscreen hback hstep
      exact ⟨t, exec_error ht hrest⟩
    · cases hscreen.symm.trans ht

end Runs

section Rows
variable {w : LiveChat} {s : OpenChat JSQMessage} {added : List MessageDictionary}
  {random : RNCryptor.RandomData} {currentId : Uid} {chatRoomId : String} {f : DateFormatter}

theorem readBy_of_row {m : MessageDictionary} {message : JSQMessage}
    {delivered : List MessageDocument} (hx : StoredIn
      (IncomingMessage.withRNCryptor cc random currentId chatRoomId f 0) world x m)
    (hrow : RowChat.Row (IncomingMessage.withRNCryptor cc random currentId chatRoomId f 0)
      delivered m message) :
    ∃ now, x.readBy (IncomingMessage.withRNCryptor cc random currentId chatRoomId f now) =
      some message := by
  obtain ⟨-, now, hbuilt⟩ := hrow
  obtain ⟨d, rfl, hcopy⟩ := hx.copy
  have hroom : x.vc.chatRoomId = chatRoomId := hx.room
  obtain ⟨message', hcreated, hread⟩ := hcopy.createMessage hroom random currentId f now
  exact ⟨now, hread.trans (Except.ok.inj (hcreated.symm.trans hbuilt))⟩

theorem Live.exists_shown
    (h : Live (IncomingMessage.withRNCryptor cc random currentId chatRoomId f 0) cc w s added) :
    ∃ shown : List (WrittenMessage cc),
      List.Forall₂ (fun x m => StoredIn
        (IncomingMessage.withRNCryptor cc random currentId chatRoomId f 0) w.world x m ∧
          w.world.Has currentId chatRoomId x.sent) shown s.chat.objectMessages ∧
      List.Forall₂ (fun (x : WrittenMessage cc) message => ∃ now, x.readBy
        (IncomingMessage.withRNCryptor cc random currentId chatRoomId f now) = some message) shown
          s.chat.messages := by
  obtain ⟨-, hsub⟩ := h.nodup_rows
  obtain ⟨shown, hshown⟩ := Rows.exists_forall₂ fun m hm => by
    have hrow := List.mem_append_right
      (s.chat.loadedMessages.rdrop s.chat.loadedMessagesCount.toNat) hm
    obtain ⟨x, hx⟩ := h.stored m (hsub hrow)
    have hhas := (hx.has_iff h.readable.consistent).mpr ((h.here m (hsub hrow)).mp hrow)
    exact (⟨x, hx, hhas⟩ : ∃ x : WrittenMessage cc, StoredIn
      (IncomingMessage.withRNCryptor cc random currentId chatRoomId f 0) w.world x m ∧
        w.world.Has currentId chatRoomId x.sent)
  refine ⟨shown, hshown, (Rows.forall₂_comp hshown h.kept.rows).imp ?_⟩
  rintro x message ⟨m, ⟨hx, -⟩, hrow⟩
  exact readBy_of_row hx hrow

/-- The rows of the queries stand first, by their dates; those that the listener has reported
follow in its order, with later dates. -/
def InOrder (listened : List String) (shown : List (WrittenMessage cc)) : Prop :=
  ∃ paged arrived, shown = paged ++ arrived ∧ (∀ x ∈ paged, x.messageId ∉ listened) ∧
    (arrived.map WrittenMessage.messageId).Sublist listened ∧
    (paged.Pairwise fun x y => x.dateString ≤ y.dateString) ∧
    ∀ x ∈ paged, ∀ y ∈ arrived, x.dateString < y.dateString

theorem Live.order (h : Live incoming cc w s added) {shown : List (WrittenMessage cc)}
    (hshown : List.Forall₂ (StoredIn incoming w.world) shown s.chat.objectMessages) :
    (shown.map WrittenMessage.messageId).Nodup ∧ InOrder w.listened shown := by
  have hids : shown.map (fun x => some x.messageId) =
      s.chat.objectMessages.map MessageDictionary.messageId :=
    Rows.map_eq_of_forall₂ (hshown.imp fun _ _ hx => hx.messageId.symm)
  constructor
  · have hnodup := h.nodup_rows.1.sublist ((List.sublist_append_right _ _).map _)
    refine List.Nodup.of_map some ?_
    rw [List.map_map]
    exact hids ▸ hnodup
  -- the rows of the queries, then those of the listener
  obtain ⟨loaded, reported, hsplit, hloaded, hreported⟩ := List.sublist_append_iff.mp h.shown
  have hsub : loaded.Sublist s.chat.loadedMessages := hloaded.trans (List.drop_sublist _ _)
  rw [hsplit] at hshown
  have hpaged := List.forall₂_take_append _ _ _ hshown
  have harrived := List.forall₂_drop_append _ _ _ hshown
  set paged := shown.take loaded.length
  set arrived := shown.drop loaded.length
  have holder : ∀ x ∈ paged, ∃ m ∈ loaded, StoredIn incoming w.world x m := fun x hx =>
    Rows.exists_of_forall₂ hpaged.flip hx
  have hnewer : ∀ x ∈ arrived, ∃ m ∈ reported, StoredIn incoming w.world x m := fun x hx =>
    Rows.exists_of_forall₂ harrived.flip hx
  refine ⟨paged, arrived, (List.take_append_drop ..).symm, fun x hx hlistened => ?_, ?_, ?_,
    fun x hx y hy => ?_⟩
  · -- what the queries have brought the listener does not report
    obtain ⟨m, hm, hstored⟩ := holder x hx
    have hnodup := h.ids
    rw [List.map_append, h.listened, List.nodup_append] at hnodup
    exact hnodup.2.2 _ (List.mem_map_of_mem (hsub.subset hm)) _
      (List.mem_map_of_mem hlistened) hstored.messageId
  · have hsame : (arrived.map WrittenMessage.messageId).map some =
        reported.map MessageDictionary.messageId := by
      rw [List.map_map]
      exact Rows.map_eq_of_forall₂ (harrived.imp fun _ _ hx => hx.messageId.symm)
    have hall := hreported.map MessageDictionary.messageId
    rw [← hsame, h.listened] at hall
    obtain ⟨ids, hids, hall⟩ := List.sublist_map_iff.mp hall
    rwa [List.map_injective_iff.mpr (Option.some_injective _) hall]
  · have hdates : paged.map WrittenMessage.dateString = loaded.map MessageDictionary.dateString :=
      Rows.map_eq_of_forall₂ (hpaged.imp fun _ _ hx => hx.dateString.symm)
    have hascending : loaded.Pairwise fun m m' => m.dateString ≤ m'.dateString :=
      h.ascending.sublist hsub
    rw [← List.pairwise_map (f := WrittenMessage.dateString) (R := (· ≤ ·)), hdates,
      List.pairwise_map]
    exact hascending
  · obtain ⟨m, hm, hx'⟩ := holder x hx
    obtain ⟨m', hm', hy'⟩ := hnewer y hy
    rw [← hx'.dateString, ← hy'.dateString]
    -- the date of the listener's query stands between them
    cases hdate : w.lastMessagesDate with
    | none =>
      have hnew := hreported.subset hm'
      rw [(h.unopened hdate).1] at hnew
      cases hnew
    | some date =>
      obtain ⟨hold, hnew⟩ := h.dates date hdate
      exact (hold m (hsub.subset hm)).trans_lt (hnew m' (hreported.subset hm'))

end Rows

section Settled
variable {w : LiveChat} {s : OpenChat JSQMessage} {added : List MessageDictionary} {date : String}

variable (incoming) in
/-- The header is hidden, and the listener has reported all that is newer than the date of its
query. -/
structure Settled (w : LiveChat) (s : OpenChat JSQMessage) (date : String) : Prop where
  header : s.chat.showLoadEarlierMessagesHeader = false
  listening : w.lastMessagesDate = some date
  reported : ∀ d ∈ isGreaterThan date (w.documents incoming), d.documentID ∈ w.listened

/-- The first query has brought messages, all of which are newer. -/
def OlderThanFirst (w : LiveChat) (m : MessageDictionary) : Prop :=
  ∃ first, (initialMessages w.atOpening).head? = some first ∧ m.dateString < first.dateString

/-- One of the queries or the listener brings the message. -/
def Brought (w : LiveChat) (date : String) (m : MessageDictionary) : Prop :=
  m.messageId ∈ (initialMessages w.atOpening).map MessageDictionary.messageId ∨
  date < m.dateString ∨
  OlderThanFirst w m ∧ m.messageId ∈ w.atBackground.map fun d => d.data.messageId

theorem mem_oldMessages_of_lt {loadedMessages : List MessageDictionary}
    {docs : List MessageDocument} {d : MessageDocument} {first : MessageDictionary}
    (hlength : 10 < loadedMessages.length) (hfirst : loadedMessages.head? = some first)
    (hd : d ∈ docs) (hdate : d.data.date.isSome) (hlt : d.dateString < first.dateString) :
    d ∈ oldMessages loadedMessages docs := by
  rw [oldMessages, if_pos hlength, hfirst]
  exact List.mem_filter.mpr ⟨List.mem_filter.mpr ⟨hd, hdate⟩, decide_eq_true hlt⟩

theorem StoredIn.legit (h : StoredIn incoming world x m) : m.legit := by
  obtain ⟨d, rfl, hcopy⟩ := h.copy
  exact hcopy.legit

theorem Live.brought (h : Live incoming cc w s added) (ho : Opened incoming cc w s)
    (hdate : w.lastMessagesDate = some date) (hx : x.sent ∈ w.world.sent)
    (hid : some x.messageId ∈ (s.chat.loadedMessages ++ added).map MessageDictionary.messageId) :
    Brought w date x.sent.data := by
  obtain ⟨m, hm, hmid⟩ := List.mem_map.mp hid
  obtain ⟨x', hx'⟩ := h.stored m hm
  have hsame : m.dateString = x.sent.data.dateString :=
    (hx'.dateString_eq h.readable hx hmid).trans (sent_dateString x).symm
  have hmid : m.messageId = x.sent.data.messageId := hmid.trans (sent_messageId x).symm
  rcases List.mem_append.mp hm with hloaded | hadded
  · rw [ho.loaded] at hloaded
    rcases List.mem_append.mp hloaded with hold | hinitial
    · obtain ⟨d, hd, rfl, -⟩ := mem_legitMessages.mp hold
      obtain ⟨hbackground, first, hfirst, hlt⟩ := mem_oldMessages hd
      exact .inr (.inr ⟨⟨first, hfirst, hsame.symm.trans_lt hlt⟩,
        List.mem_map.mpr ⟨d, hbackground, hmid⟩⟩)
    · exact .inl (List.mem_map.mpr ⟨m, hinitial, hmid⟩)
  · exact .inr (.inl (((h.dates date hdate).2 m hadded).trans_eq hsame))

theorem Settled.mem_ids (hsettled : Settled incoming w s date) (h : Live incoming cc w s added)
    (ho : Opened incoming cc w s) (hx : x.sent ∈ w.world.sent)
    (hhas : w.world.Has incoming.currentId incoming.chatRoomId x.sent)
    (hbrought : Brought w date x.sent.data) :
    some x.messageId ∈ (s.chat.loadedMessages ++ added).map MessageDictionary.messageId := by
  rw [List.map_append, List.mem_append]
  rcases hbrought with hinitial | hlt | ⟨⟨first, hfirst, hlt⟩, hbackground⟩
  · left
    rw [ho.loaded, List.map_append, ← sent_messageId]
    exact List.mem_append_right _ hinitial
  · right
    obtain ⟨d, hd, hcopy⟩ := h.readable.mem_collection hx hhas
    have hsame : d.dateString = x.sent.data.dateString := by
      rw [sent_dateString, MessageDocument.dateString, MessageDictionary.dateString,
        hcopy.dateString, Option.getD_some]
    have hreported : d ∈ isGreaterThan date (w.documents incoming) :=
      List.mem_filter.mpr ⟨List.mem_filter.mpr ⟨hd, by rw [hcopy.dateString]; rfl⟩,
        decide_eq_true (hlt.trans_eq hsame.symm)⟩
    rw [h.listened, ← hcopy.1]
    exact List.mem_map_of_mem (hsettled.reported d hreported)
  · left
    obtain ⟨d, hd, hid⟩ := List.mem_map.mp hbackground
    have hid : d.data.messageId = some x.messageId := hid.trans (sent_messageId x)
    obtain ⟨x', hx'⟩ := ho.stored d (List.mem_append_right _ hd)
    have hsame := hx'.dateString_eq h.readable hx hid
    have hcompleted : s.background = .completed := by
      by_contra hback
      rw [ho.waiting hback] at hd
      cases hd
    have hold : d ∈ oldMessages (initialMessages w.atOpening) w.atBackground :=
      mem_oldMessages_of_lt (ho.asked hcompleted) hfirst hd (by rw [hx'.date]; rfl)
        ((hsame.trans (sent_dateString x).symm).trans_lt hlt)
    rw [ho.loaded, List.map_append, ← hid]
    exact List.mem_append_left _
      (List.mem_map_of_mem (mem_legitMessages.mpr ⟨d, hold, rfl, hx'.legit⟩))

theorem Live.mem_objectMessages (h : Live incoming cc w s added)
    (hheader : s.chat.showLoadEarlierMessagesHeader = false)
    (hm : m ∈ s.chat.loadedMessages ++ added) (hgone : ¬ Gone incoming w.world m) :
    m ∈ s.chat.objectMessages := by
  obtain ⟨count, hcount, -⟩ := h.count
  have hall := h.header
  rw [hheader, hcount] at hall
  have hlength : count = s.chat.loadedMessages.length := by
    have := of_decide_eq_false hall.symm
    omega
  have hhere := (h.here m hm).mpr hgone
  rwa [hcount, Int.toNat_natCast, hlength, List.rdrop, Nat.sub_self, List.take_zero,
    List.nil_append] at hhere

theorem Live.exists_shown_iff (h : Live incoming cc w s added)
    (hheader : s.chat.showLoadEarlierMessagesHeader = false) {shown : List (WrittenMessage cc)}
    (hshown : List.Forall₂ (StoredIn incoming w.world) shown s.chat.objectMessages)
    (hx : x.sent ∈ w.world.sent)
    (hhas : w.world.Has incoming.currentId incoming.chatRoomId x.sent) :
    (∃ y ∈ shown, y.sent = x.sent) ↔
      some x.messageId ∈ (s.chat.loadedMessages ++ added).map MessageDictionary.messageId := by
  have hids : shown.map (fun y => some y.messageId) =
      s.chat.objectMessages.map MessageDictionary.messageId :=
    Rows.map_eq_of_forall₂ (hshown.imp fun _ _ hy => hy.messageId.symm)
  constructor
  · rintro ⟨y, hy, hsame⟩
    have hmem : some y.messageId ∈ s.chat.objectMessages.map MessageDictionary.messageId :=
      hids ▸ List.mem_map_of_mem hy
    rw [show x.messageId = y.messageId from (congrArg SendCall.messageId hsame).symm]
    have hrows : s.chat.objectMessages ⊆ s.chat.loadedMessages ++ added :=
      List.Subset.trans (List.subset_append_right _ _) h.nodup_rows.2
    exact List.map_subset _ hrows hmem
  · intro hid
    obtain ⟨m, hm, hmid⟩ := List.mem_map.mp hid
    obtain ⟨y, hy⟩ := h.stored m hm
    have hsame : y.sent = x.sent := hy.sent_eq h.readable hx hmid
    have hgone := (hy.has_iff h.readable.consistent).mp (hsame ▸ hhas)
    have hobject := h.mem_objectMessages hheader hm hgone
    have hmem : some x.messageId ∈ shown.map fun y => some y.messageId := by
      rw [hids, ← hmid]
      exact List.mem_map_of_mem hobject
    obtain ⟨z, hz, hzid⟩ := List.mem_map.mp hmem
    have hsent : ∀ z ∈ shown, z.sent ∈ w.world.sent :=
      ((List.forall₂_and_left shown _).mp (hshown.imp fun _ _ hz => ⟨hz.sent, hz⟩)).1
    exact ⟨z, hz, List.inj_on_of_nodup_map h.readable.nodup (hsent z hz) hx (Option.some.inj hzid)⟩

/-- The background query has been answered with the older ones of the documents that the device
had at first. -/
theorem Opened.mem_atBackground (h : Opened incoming cc w s) (hlive : Live incoming cc w s added)
    (hheader : s.chat.showLoadEarlierMessagesHeader = false) (hx : x.sent ∈ w.world.sent)
    (hhas : w.world.Has incoming.currentId incoming.chatRoomId x.sent)
    (hopening : some x.messageId ∈ w.atOpening.map fun d => d.data.messageId)
    (holder : OlderThanFirst w x.sent.data) :
    some x.messageId ∈ w.atBackground.map fun d => d.data.messageId := by
  have hstored : ∀ d ∈ w.atOpening, ∃ y : WrittenMessage cc, StoredIn incoming w.world y d.data :=
    fun d hd => h.stored d (List.mem_append_left _ hd)
  have hdate : ∀ d ∈ w.atOpening, d.data.date.isSome := by
    intro d hd
    obtain ⟨y, hy⟩ := hstored d hd
    rw [hy.date]
    rfl
  have hlegit : ∀ d ∈ w.atOpening, d.data.legit := by
    intro d hd
    obtain ⟨y, hy⟩ := hstored d hd
    exact hy.legit
  obtain ⟨first, hfirst, hlt⟩ := holder
  obtain ⟨d, hd, hid⟩ := List.mem_map.mp hopening
  have hid : d.data.messageId = some x.messageId := hid
  obtain ⟨y, hy⟩ := hstored d hd
  have hlt : d.dateString < first.dateString := by
    rw [MessageDocument.dateString, hy.dateString_eq hlive.readable hx hid, ← sent_dateString]
    exact hlt
  have hgone : ¬ Gone incoming w.world d.data :=
    (hy.has_iff hlive.readable.consistent).mp (hy.sent_eq hlive.readable hx hid ▸ hhas)
  rcases List.mem_append.mp ((lastEleven_append_older hdate).mem_iff.mpr hd) with hwindow | holder
  · -- among the newest eleven none is older than the first
    have hmem : d.data ∈ initialMessages w.atOpening :=
      mem_initialMessages.mpr ⟨d, hwindow, rfl, hlegit d hd⟩
    exact absurd hlt (not_lt.mpr ((ascending_sorted_filter _).head_le hfirst hmem))
  · -- the window is full, so that the background query has been asked
    have hlength : (initialMessages w.atOpening).length = 11 := by
      rw [initialMessages_length_of_legit fun d' hd' => hlegit d' (mem_of_mem_lastEleven hd')]
      by_contra hne
      have hle : (lastElevenMessages w.atOpening).length ≤ 11 := List.length_take_le _ _
      have hnil : olderMessages w.atOpening = [] := older_eq_nil (lt_of_le_of_ne hle hne)
      rw [hnil] at holder
      cases holder
    have hcompleted : s.background = .completed := by
      cases hback : s.background with
      | notIssued => exact absurd (h.short hback) (by omega)
      | issued => exact absurd (hlive.header_of_issued hback) (by simp [hheader])
      | failed => exact absurd (h.failed hback) (by simp [hheader])
      | completed => rfl
    rw [← hid]
    exact (h.older hcompleted d hd).resolve_left hgone

end Settled

end LiveChat

section Opened
open LiveChat

def bobOpens : IncomingMessage := IncomingMessage.withRNCryptor RNCryptor.xorCrypto
  RNCryptor.zeroRandomData "bob" "alicebob" (dateFormatter 3600) 0

/-- Bob opens the chat with its twelve greetings, Alice greets him once more, and he taps the
header. -/
def greetedInChat : List (Date × LiveAction) :=
  [(secondOf 20, .initialSnapshot true), (secondOf 20, .backgroundSnapshot true),
    (secondOf 21, .device (.sendMessage (greets alice ⟨12, by decide⟩).sent)),
    (secondOf 21, .device (.commit "alice")), (secondOf 21, .device (.commit "alice")),
    (secondOf 22, .added "12"), (secondOf 23, .didTapLoadEarlierMessagesButton)]

theorem ofApp_greetedInChat :
    ∀ e ∈ greetedInChat, LiveChat.OfApp bobOpens RNCryptor.xorCrypto e.2 := by
  simp [greetedInChat, LiveChat.OfApp, Deletes, Writes]

theorem exec_greetedInChat : ∃ world w s date,
    Runs.exec MessageWorld.step init (aliceGreetsTwice ++ bobGreetsTenTimes) = some world ∧
    Runs.exec (LiveChat.step bobOpens ["alice"]) (opening world) greetedInChat = some w ∧
    w.chat.screen = .ok s ∧ s.chat.messages.length = 13 ∧ w.listened = ["12"] ∧
    Settled bobOpens w s date := by
  obtain ⟨world, hworld, hlive⟩ : ∃ world,
      Runs.exec MessageWorld.step init (aliceGreetsTwice ++ bobGreetsTenTimes) = some world ∧
      (Runs.exec (LiveChat.step bobOpens ["alice"]) (opening world) greetedInChat).any (fun w =>
        w.listened = ["12"] ∧ w.lastMessagesDate.isSome ∧
        (w.chat.screen.toOption.any fun s => s.chat.messages.length = 13 ∧
          s.chat.showLoadEarlierMessagesHeader = false) = true ∧
        ∀ d ∈ isGreaterThan (w.lastMessagesDate.getD "") (w.documents bobOpens),
          d.documentID ∈ w.listened) = true := Runs.exists_of_any (by decide +kernel)
  obtain ⟨w, hrun, hlistened, hdate, hrows, hreported⟩ := Runs.exists_of_any hlive
  obtain ⟨date, hdate⟩ := Option.isSome_iff_exists.mp hdate
  obtain ⟨s, hs, hrows⟩ := (Option.any_eq_true _ _).mp hrows
  obtain ⟨hlength, hheader⟩ := of_decide_eq_true hrows
  rw [hdate] at hreported
  refine ⟨world, w, s, date, hworld, hrun, ?_, hlength, hlistened, hheader, hdate, hreported⟩
  cases hscreen : w.chat.screen with
  | error t =>
    rw [hscreen] at hs
    cases hs
  | ok s' =>
    rw [hscreen] at hs
    exact congrArg Except.ok (Option.some.inj hs)

variable (cc : RNCryptor.CommonCrypto) (before : List MessageAction) (world : MessageWorld)
  (random : RNCryptor.RandomData) (currentId : Uid) (chatRoomId : String) (f : DateFormatter)
  (membersToPush : List Uid) (events : List (Date × LiveAction)) (w : LiveChat)

/-- A chat is opened at any moment and stays open while the devices go on, its queries, its
listeners and the user's taps and deletions coming in any order.  Its rows are messages that have
been written and that the device has, each once; those that have been paged in stand first and by
their dates.  The screen traps exactly when the header is tapped before the background query has
been answered. -/
theorem open_chat_shows_what_was_written (hbefore : ∀ a ∈ before, Writes cc a)
    (hworld : Runs.exec MessageWorld.step init before = some world) :
    let incoming := IncomingMessage.withRNCryptor cc random currentId chatRoomId f 0
    (∀ e ∈ events, OfApp incoming cc e.2) →
    Runs.exec (LiveChat.step incoming membersToPush) (opening world) events = some w →
    ((∃ t, w.chat.screen = .error t) ↔ TappedEarly incoming membersToPush world events) ∧
    ∀ s, w.chat.screen = .ok s → ∃ shown,
      List.Forall₂ (fun (x : WrittenMessage cc) message => ∃ now, x.readBy
        (IncomingMessage.withRNCryptor cc random currentId chatRoomId f now) = some message) shown
          s.chat.messages ∧
      (∀ x ∈ shown, x.sent ∈ w.world.sent ∧ w.world.Has currentId chatRoomId x.sent) ∧
      (shown.map WrittenMessage.messageId).Nodup ∧ InOrder w.listened shown := by
  intro incoming hevents hrun
  have hreadable := readable_of_run hbefore hworld
  refine ⟨trapped_iff hreadable events hevents hrun, fun s hscreen => ?_⟩
  rcases exec_inStep hreadable events hevents hrun with ⟨s', added, hok, hlive, -⟩ | ⟨⟨t, ht⟩, -⟩
  · obtain rfl : s = s' := Except.ok.inj (hscreen.symm.trans hok)
    obtain ⟨shown, hshown, hread⟩ := hlive.exists_shown
    have hsent : ∀ x ∈ shown, x.sent ∈ w.world.sent ∧ w.world.Has currentId chatRoomId x.sent :=
      ((List.forall₂_and_left shown _).mp
        (hshown.imp fun _ _ hx => ⟨⟨hx.1.sent, hx.2⟩, hx⟩)).1
    exact ⟨shown, hread, hsent, hlive.order (hshown.imp fun _ _ hx => hx.1)⟩
  · cases hscreen.symm.trans ht

/-- All greetings are on the screen, that of the listener last. -/
theorem open_chat_shows_greeting : ∃ world w s, ∃ shown : List (WrittenMessage RNCryptor.xorCrypto),
    Runs.exec MessageWorld.step init (aliceGreetsTwice ++ bobGreetsTenTimes) = some world ∧
    Runs.exec (LiveChat.step bobOpens ["alice"]) (opening world) greetedInChat = some w ∧
    w.chat.screen = .ok s ∧ ¬ TappedEarly bobOpens ["alice"] world greetedInChat ∧
    List.Forall₂ (fun x message => ∃ now, x.readBy (IncomingMessage.withRNCryptor
      RNCryptor.xorCrypto RNCryptor.zeroRandomData "bob" "alicebob" (dateFormatter 3600) now) =
        some message) shown s.chat.messages ∧
    shown.length = 13 ∧ (shown.map WrittenMessage.messageId).Nodup ∧ InOrder ["12"] shown := by
  obtain ⟨world, w, s, date, hworld, hrun, hscreen, hlength, hlistened, -⟩ := exec_greetedInChat
  obtain ⟨htrapped, hshows⟩ := open_chat_shows_what_was_written RNCryptor.xorCrypto
    (aliceGreetsTwice ++ bobGreetsTenTimes) world RNCryptor.zeroRandomData "bob" "alicebob"
    (dateFormatter 3600) ["alice"] greetedInChat w writes_greetings hworld ofApp_greetedInChat hrun
  obtain ⟨shown, hread, -, hnodup, horder⟩ := hshows s hscreen
  refine ⟨world, w, s, shown, hworld, hrun, hscreen, fun hearly => ?_, hread,
    hread.length_eq.trans hlength, hnodup, hlistened ▸ horder⟩
  obtain ⟨t, ht⟩ := htrapped.mpr hearly
  cases hscreen.symm.trans ht

/-- When the header is hidden and the listener has reported all, a message that the device has is
on the screen exactly when it was among the newest eleven of the first query, is newer than the date
of the listener's query, or is older than what the first query has brought and was there when the
background query was answered.  It was, if it was there at the opening. -/
theorem settled_chat_shows_what_was_brought (hbefore : ∀ a ∈ before, Writes cc a)
    (hworld : Runs.exec MessageWorld.step init before = some world) :
    let incoming := IncomingMessage.withRNCryptor cc random currentId chatRoomId f 0
    (∀ e ∈ events, OfApp incoming cc e.2) →
    Runs.exec (LiveChat.step incoming membersToPush) (opening world) events = some w →
    ∀ s date, w.chat.screen = .ok s → Settled incoming w s date →
    ∃ shown, List.Forall₂ (fun (x : WrittenMessage cc) message => ∃ now, x.readBy
        (IncomingMessage.withRNCryptor cc random currentId chatRoomId f now) = some message) shown
          s.chat.messages ∧
      ∀ m ∈ w.world.sent, w.world.Has currentId chatRoomId m →
        ((∃ x ∈ shown, x.sent = m) ↔ Brought w date m.data) ∧
        (OlderThanFirst w m.data →
          m.data.messageId ∈ w.atOpening.map (fun d => d.data.messageId) →
          m.data.messageId ∈ w.atBackground.map fun d => d.data.messageId) := by
  intro incoming hevents hrun s date hscreen hsettled
  have hreadable := readable_of_run hbefore hworld
  rcases exec_inStep hreadable events hevents hrun with
    ⟨s', added, hok, hlive, hopened⟩ | ⟨⟨t, ht⟩, -⟩
  · obtain rfl : s = s' := Except.ok.inj (hscreen.symm.trans hok)
    obtain ⟨shown, hshown, hread⟩ := hlive.exists_shown
    refine ⟨shown, hread, fun m hm hhas => ?_⟩
    obtain ⟨x, rfl⟩ := hlive.readable.written m hm
    rw [hlive.exists_shown_iff hsettled.header (hshown.imp fun _ _ hx => hx.1) hm hhas,
      sent_messageId]
    exact ⟨⟨hlive.brought hopened hsettled.listening hm, hsettled.mem_ids hlive hopened hm hhas⟩,
      fun holder hopening => hopened.mem_atBackground hlive hsettled.header hm hhas hopening holder⟩
  · cases hscreen.symm.trans ht

/-- Every greeting that Bob's device has is on the screen exactly if it was brought. -/
theorem settled_chat_shows_greeting :
    ∃ world w s date, ∃ shown : List (WrittenMessage RNCryptor.xorCrypto),
    Runs.exec MessageWorld.step init (aliceGreetsTwice ++ bobGreetsTenTimes) = some world ∧
    Runs.exec (LiveChat.step bobOpens ["alice"]) (opening world) greetedInChat = some w ∧
    w.chat.screen = .ok s ∧
    List.Forall₂ (fun x message => ∃ now, x.readBy (IncomingMessage.withRNCryptor
      RNCryptor.xorCrypto RNCryptor.zeroRandomData "bob" "alicebob" (dateFormatter 3600) now) =
        some message) shown s.chat.messages ∧
    shown.length = 13 ∧ ∀ m ∈ w.world.sent, w.world.Has "bob" "alicebob" m →
      ((∃ x ∈ shown, x.sent = m) ↔ Brought w date m.data) := by
  obtain ⟨world, w, s, date, hworld, hrun, hscreen, hlength, -, hsettled⟩ := exec_greetedInChat
  obtain ⟨shown, hread, hshown⟩ := settled_chat_shows_what_was_brought RNCryptor.xorCrypto
    (aliceGreetsTwice ++ bobGreetsTenTimes) world RNCryptor.zeroRandomData "bob" "alicebob"
    (dateFormatter 3600) ["alice"] greetedInChat w writes_greetings hworld ofApp_greetedInChat hrun
    s date hscreen hsettled
  exact ⟨world, w, s, date, shown, hworld, hrun, hscreen, hread, hread.length_eq.trans hlength,
    fun m hm hhas => (hshown m hm hhas).1⟩

end Opened

end LiChat
