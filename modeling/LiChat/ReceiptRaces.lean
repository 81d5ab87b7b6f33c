import LiChat.MessageCopies

/-!
# Receipts that come too early

A reader marks the copies of the members as soon as its own has come.  The sender writes the
copies one by one, and a copy that is not there yet is not marked.
-/

namespace LiChat
open WriteQueues

namespace MessageWorld
variable {w w' : MessageWorld} {m : SendCall} {reader memberId : Uid} {path : MessagePath}
  {readDate : String}

/-- While the copy of a member waits, so do those of the members behind it. -/
def Ordered (w : MessageWorld) : Prop :=
  ∀ m ∈ w.sent, ∀ memberId memberId', [memberId, memberId'].Sublist m.memberIds →
    SetsBefore m.senderId (m.path memberId) (m.path memberId') w.firestore

theorem ordered_init : Ordered init := fun _ hm => absurd hm List.not_mem_nil

theorem Ordered.step (h : Ordered w) (hconsistent : Consistent w) {a : MessageAction}
    (hs : w.step a = some w') : Ordered w' := by
  cases a with
  | sendMessage m =>
    simp only [MessageWorld.step, Option.ite_none_left_eq_some, Option.some.injEq] at hs
    obtain ⟨hid, rfl⟩ := hs
    intro m' hm' memberId memberId' hsublist
    rcases List.mem_append.mp hm' with hold | hlast
    · refine (h m' hold memberId memberId' hsublist).issue (fun hset => hid ?_) m.senderId
      rw [setKeys_writes] at hset
      obtain ⟨_, -, hpath⟩ := List.mem_map.mp hset
      rw [show m.messageId = m'.messageId from congrArg MessagePath.messageId hpath]
      exact List.mem_map_of_mem hold
    · obtain rfl := List.mem_singleton.mp hlast
      refine setsBefore_issue_self ?_
      rw [setKeys_writes]
      exact hsublist.map m'.path
  | deleteMessage currentId withId chatRoomId =>
    simp only [MessageWorld.step, Option.ite_none_right_eq_some, Option.some.injEq] at hs
    obtain ⟨-, rfl⟩ := hs
    exact fun m hm memberId memberId' hsublist =>
      (h m hm memberId memberId' hsublist).issue List.not_mem_nil currentId
  | updateMessage currentId readDate withId chatRoomId memberIds =>
    obtain rfl := Option.some.inj hs
    exact h
  | getDocument n =>
    obtain ⟨⟨currentId, path, readDate⟩, -, rfl⟩ := Option.map_eq_some_iff.mp hs
    intro m hm memberId memberId' hsublist
    dsimp only
    split_ifs
    · exact (h m hm memberId memberId' hsublist).issue List.not_mem_nil currentId
    · exact h m hm memberId memberId' hsublist
  | commit userId =>
    obtain ⟨firestore, hcommit, rfl⟩ := Option.map_eq_some_iff.mp hs
    exact fun m hm memberId memberId' hsublist =>
      (h m hm memberId memberId' hsublist).commit hconsistent.fresh hcommit

theorem Consistent.isSome_store (h : Consistent w) (hm : m ∈ w.sent)
    (hreader : reader ∈ m.memberIds) (hother : reader ≠ m.senderId)
    (hseen : (view w.firestore reader (m.path reader)).isSome) :
    (w.firestore.store (m.path reader)).isSome := by
  have hdeleted : m.path reader ∉ w.deleted := by
    intro hdeleted
    have hnone : view w.firestore reader (m.path reader) = none := (h.deleted _ hdeleted).2.1
    rw [hnone] at hseen
    cases hseen
  rcases h.comes m hm _ (List.mem_map_of_mem hreader) hdeleted with hset | hstore
  · rcases exists_of_view_isSome hseen with hown | hstore
    · exact absurd (h.fresh.unique _ _ _ hown hset) hother
    · exact hstore
  · exact hstore

theorem pair_sublist_of_idxOf_lt {l : List Uid} {memberId' : Uid} (hmember : memberId ∈ l)
    (hmember' : memberId' ∈ l) (h : l.idxOf memberId < l.idxOf memberId') :
    [memberId, memberId'].Sublist l := by
  have htake : memberId ∈ l.take (l.idxOf memberId + 1) :=
    (List.mem_take_iff_idxOf_lt hmember).mpr (Nat.lt_succ_self _)
  have hdrop : memberId' ∈ l.drop (l.idxOf memberId + 1) := by
    rw [← List.take_append_drop (l.idxOf memberId + 1) l, List.mem_append] at hmember'
    refine hmember'.resolve_left fun hbefore => ?_
    have hlt := (List.mem_take_iff_idxOf_lt (List.mem_of_mem_take hbefore)).mp hbefore
    omega
  rw [← List.take_append_drop (l.idxOf memberId + 1) l]
  exact (List.singleton_sublist.mpr htake).append (List.singleton_sublist.mpr hdrop)

theorem Ordered.isSome_store (h : Ordered w) (hconsistent : Consistent w) (hm : m ∈ w.sent)
    (hreader : reader ∈ m.memberIds) (hother : reader ≠ m.senderId)
    (hseen : (view w.firestore reader (m.path reader)).isSome) (hmember : memberId ∈ m.memberIds)
    (hle : m.memberIds.idxOf memberId ≤ m.memberIds.idxOf reader)
    (hdeleted : m.path memberId ∉ w.deleted) : (w.firestore.store (m.path memberId)).isSome := by
  have hstore := hconsistent.isSome_store hm hreader hother hseen
  rcases hle.lt_or_eq with hlt | heq
  · -- the reader's copy does not wait, and so neither does one before it
    have hbefore := h m hm memberId reader (pair_sublist_of_idxOf_lt hmember hreader hlt)
    have hgone : m.path reader ∉ setKeys (w.firestore.queue m.senderId) := by
      intro hset
      rw [hconsistent.fresh.store _ _ hset] at hstore
      cases hstore
    exact (hconsistent.comes m hm _ (List.mem_map_of_mem hmember) hdeleted).resolve_left
      (hbefore.not_mem hgone)
  · obtain rfl := (List.idxOf_inj hmember).mp heq
    exact hstore

/-- The copy is deleted, or the mark of the reader is on its way or has been made. -/
def Marking (reader : Uid) (path : MessagePath) (readDate : String) (w : MessageWorld) : Prop :=
  path ∈ w.deleted ∨ (w.firestore.store path).isSome ∧
    ((reader, path, readDate) ∈ w.getDocuments ∨
      .update path (OutgoingMessages.markRead readDate) ∈ w.firestore.queue reader ∨
      ∃ d, w.firestore.store path = some d ∧ d.status = some kREAD)

theorem Marking.issue (h : Marking reader path readDate w) (userId : Uid)
    (writes : List (WriteQueues.Write MessagePath MessageDictionary)) (sent : List SendCall)
    {deleted : List MessagePath} (hdeleted : w.deleted ⊆ deleted) :
    Marking reader path readDate
      ⟨WriteQueues.issue userId writes w.firestore, w.getDocuments, sent, deleted⟩ := by
  refine h.imp (fun hpath => hdeleted hpath) (And.imp_right (Or.imp_right (Or.imp_left ?_)))
  exact fun hupdate => mem_queue_issue.mpr (.inl hupdate)

theorem Marking.getDocument (h : Marking reader path readDate w) (hconsistent : Consistent w)
    {n : ℕ} (hs : w.step (.getDocument n) = some w') : Marking reader path readDate w' := by
  obtain ⟨⟨currentId, path', readDate'⟩, hn, rfl⟩ := Option.map_eq_some_iff.mp hs
  by_cases hdeleted : path ∈ w.deleted
  · exact .inl hdeleted
  obtain ⟨hstore, hmark⟩ := h.resolve_left hdeleted
  have hkept : Marking reader path readDate
      ⟨w.firestore, w.getDocuments.eraseIdx n, w.sent, w.deleted⟩ ∨
        (reader, path, readDate) = (currentId, path', readDate') := by
    rcases hmark with hpending | hmark
    · obtain ⟨i, hi⟩ := List.mem_iff_getElem?.mp hpending
      by_cases heq : i = n
      · subst heq
        exact .inr (Option.some.inj (hi.symm.trans hn))
      · exact .inl (.inr ⟨hstore, .inl (List.mem_eraseIdx_iff_getElem?.mpr ⟨i, heq, hi⟩)⟩)
    · exact .inl (.inr ⟨hstore, .inr hmark⟩)
  rcases hkept with hkept | heq
  · dsimp only
    split_ifs
    · exact hkept.issue _ _ w.sent (List.Subset.refl _)
    · exact hkept
  · -- the document is found
    obtain ⟨rfl, rfl, rfl⟩ : reader = currentId ∧ path = path' ∧ readDate = readDate' := by
      simpa using heq
    have hseen : (view w.firestore reader path).isSome :=
      Comes.view_isSome (.inr hstore) fun hdelete => hdeleted (hconsistent.deletes _ _ hdelete)
    dsimp only
    rw [if_pos hseen]
    exact .inr ⟨hstore, .inr (.inl (mem_queue_issue.mpr (.inr ⟨rfl, List.mem_singleton_self _⟩)))⟩

theorem Marking.commit (h : Marking reader path readDate w) (hconsistent : Consistent w)
    {userId : Uid} (hs : w.step (.commit userId) = some w') : Marking reader path readDate w' := by
  obtain ⟨firestore, hcommit, rfl⟩ := Option.map_eq_some_iff.mp hs
  by_cases hdeleted : path ∈ w.deleted
  · exact .inl hdeleted
  obtain ⟨hstore, hmark⟩ := h.resolve_left hdeleted
  obtain ⟨d, hd⟩ := Option.isSome_iff_exists.mp hstore
  obtain ⟨write, hwrite, happly, hqueue⟩ := exists_of_commit hcommit
  right
  dsimp only
  rw [happly, hd, WriteQueues.Write.actAt]
  split_ifs with hkey
  · cases write with
    | set path' d' =>
      obtain rfl : path' = path := hkey
      rw [hconsistent.fresh.store _ _ (mem_setKeys.mpr ⟨d', hwrite⟩)] at hd
      cases hd
    | update path' f =>
      obtain ⟨readDate', rfl⟩ := hconsistent.marks _ _ _ hwrite
      exact ⟨rfl, .inr (.inr ⟨_, rfl, rfl⟩)⟩
    | delete path' =>
      obtain rfl : path' = path := hkey
      exact absurd (hconsistent.deletes _ _ hwrite) hdeleted
  · refine ⟨rfl, hmark.imp_right (Or.imp (fun hupdate => ?_) fun hread => ?_)⟩
    · refine (hqueue reader _ hupdate).resolve_right fun heq => hkey ?_
      rw [← heq]
      rfl
    · rwa [hd] at hread

theorem Marking.step (h : Marking reader path readDate w) (hconsistent : Consistent w)
    {a : MessageAction} (hs : w.step a = some w') : Marking reader path readDate w' := by
  cases a with
  | sendMessage m =>
    simp only [MessageWorld.step, Option.ite_none_left_eq_some, Option.some.injEq] at hs
    obtain ⟨-, rfl⟩ := hs
    exact h.issue _ _ _ (List.Subset.refl _)
  | deleteMessage currentId withId chatRoomId =>
    simp only [MessageWorld.step, Option.ite_none_right_eq_some, Option.some.injEq] at hs
    obtain ⟨-, rfl⟩ := hs
    exact h.issue _ _ _ (List.subset_append_left _ _)
  | updateMessage currentId readDate' withId chatRoomId memberIds =>
    obtain rfl := Option.some.inj hs
    exact h.imp_right (And.imp_right (Or.imp_left fun hpending => List.mem_append_left _ hpending))
  | getDocument n => exact h.getDocument hconsistent hs
  | commit userId => exact h.commit hconsistent hs

theorem exec_ordered {actions : List MessageAction} (hactions : ∀ a ∈ actions, DistinctMembers a)
    (hrun : Runs.exec step init actions = some w) : Consistent w ∧ Ordered w := by
  have hguard : Runs.Guarded step (fun _ a => DistinctMembers a) init actions :=
    Runs.guarded_of_forall hactions init
  exact (Runs.always_of_guarded (I := fun w => Consistent w ∧ Ordered w)
    (fun _ _ _ hI ha hs => ⟨hI.1.step ha hs, hI.2.step hI.1 hs⟩)
    ⟨consistent_init, ordered_init⟩ hguard).last hrun

theorem exec_marking {actions : List MessageAction} (hactions : ∀ a ∈ actions, DistinctMembers a)
    (h : Marking reader path readDate w) (hconsistent : Consistent w)
    (hrun : Runs.exec step w actions = some w') : Marking reader path readDate w' := by
  have hguard : Runs.Guarded step (fun _ a => DistinctMembers a) w actions :=
    Runs.guarded_of_forall hactions w
  exact ((Runs.always_of_guarded (I := fun w => Consistent w ∧ Marking reader path readDate w)
    (fun _ _ _ hI ha hs => ⟨hI.1.step ha hs, hI.2.step hI.1 hs⟩) ⟨hconsistent, h⟩ hguard).last
      hrun).2

/-- Whenever the reader calls `updateMessage` for a message that it sees, the member's copy is
marked as read once all is done, or has been deleted. -/
def ReceiptArrives (m : SendCall) (reader memberId : Uid) : Prop :=
  ∀ (before after : List MessageAction) (readDate : String) (memberIds : List Uid)
    (w₀ w : MessageWorld), (∀ a ∈ before ++ after, DistinctMembers a) →
    Runs.exec step init before = some w₀ → m ∈ w₀.sent →
    (view w₀.firestore reader (m.path reader)).isSome → memberId ∈ memberIds →
    Runs.exec step w₀
      (.updateMessage reader readDate m.messageId m.chatRoomId memberIds :: after) = some w →
    w.getDocuments = [] → (∀ userId, w.firestore.queue userId = []) →
    m.path memberId ∉ w.deleted →
    ∃ d, w.firestore.store (m.path memberId) = some d ∧ d.status = some kREAD

theorem receiptArrives_of_le (hreader : reader ∈ m.memberIds) (hother : reader ≠ m.senderId)
    (hmember : memberId ∈ m.memberIds)
    (hle : m.memberIds.idxOf memberId ≤ m.memberIds.idxOf reader) :
    ReceiptArrives m reader memberId := by
  intro before after readDate memberIds w₀ w hactions hbefore hm hseen hmark hrun hanswered hdone
    hdeleted
  obtain ⟨hbeforeActions, hafterActions⟩ := List.forall_mem_append.mp hactions
  obtain ⟨hconsistent, hordered⟩ := exec_ordered hbeforeActions hbefore
  rw [Runs.exec_cons, Option.bind_eq_some_iff] at hrun
  obtain ⟨w₁, hcall, hrun⟩ := hrun
  have hconsistent₁ : Consistent w₁ := hconsistent.step
    (show DistinctMembers (.updateMessage reader readDate _ _ memberIds) from trivial) hcall
  have hmarking : Marking reader (m.path memberId) readDate w₁ := by
    obtain rfl := Option.some.inj hcall
    by_cases hgone : m.path memberId ∈ w₀.deleted
    · exact .inl hgone
    · refine .inr ⟨?_, .inl ?_⟩
      · exact hordered.isSome_store hconsistent hm hreader hother hseen hmember hle hgone
      · refine List.mem_append_right _ (List.mem_map_of_mem ?_)
        exact List.mem_map_of_mem hmark
  rcases exec_marking hafterActions hmarking hconsistent₁ hrun with hgone | ⟨-, hpending | hrest⟩
  · exact absurd hgone hdeleted
  · rw [hanswered] at hpending
    cases hpending
  · refine hrest.resolve_left fun hupdate => ?_
    rw [hdone reader] at hupdate
    cases hupdate

theorem exec_commits {userId : Uid}
    {writes rest : List (WriteQueues.Write MessagePath MessageDictionary)}
    (h : w.firestore.queue userId = writes ++ rest) :
    Runs.exec step w (List.replicate writes.length (.commit userId)) = some { w with
      firestore := ⟨writes.foldl WriteQueues.Write.apply w.firestore.store,
        Function.update w.firestore.queue userId rest⟩ } := by
  induction writes generalizing w with
  | nil =>
    rw [List.nil_append] at h
    rw [← h, Function.update_eq_self]
    rfl
  | cons write writes ih =>
    have hstep : w.step (.commit userId) = some { w with
        firestore := ⟨write.apply w.firestore.store,
          Function.update w.firestore.queue userId (writes ++ rest)⟩ } := by
      simp only [MessageWorld.step, WriteQueues.commit, h, List.cons_append, Option.map_some]
    rw [List.length_cons, List.replicate_succ, Runs.exec_cons, hstep, Option.bind_some,
      ih (Function.update_self ..)]
    simp only [Function.update_idem, List.foldl_cons]

variable (m) in
/-- The first copies have been written, and nothing else has happened. -/
def partlySent (n : ℕ) : MessageWorld :=
  ⟨⟨(m.writes.take n).foldl WriteQueues.Write.apply fun _ => none,
    Function.update (fun _ => []) m.senderId (m.writes.drop n)⟩, [], [m], []⟩

theorem exec_sendMessage (n : ℕ) : Runs.exec step init
    (.sendMessage m :: List.replicate (m.writes.take n).length (.commit m.senderId)) =
      some (partlySent m n) := by
  have hsend : init.step (.sendMessage m) =
      some ⟨WriteQueues.issue m.senderId m.writes init.firestore, [], [m], []⟩ := rfl
  have hqueue : (WriteQueues.issue m.senderId m.writes init.firestore).queue m.senderId =
      m.writes.take n ++ m.writes.drop n := by
    rw [List.take_append_drop]
    exact Function.update_self ..
  rw [Runs.exec_cons, hsend, Option.bind_some, exec_commits hqueue]
  simp only [WriteQueues.issue, Function.update_idem]
  rfl

theorem exec_partlySent (n : ℕ) : Runs.exec step (partlySent m n)
    (List.replicate (m.writes.drop n).length (.commit m.senderId)) =
      some (partlySent m m.writes.length) := by
  have hqueue : (partlySent m n).firestore.queue m.senderId = m.writes.drop n ++ [] := by
    simp [partlySent]
  rw [exec_commits hqueue]
  simp only [partlySent, Function.update_idem, ← List.foldl_append, List.take_append_drop,
    List.take_length, List.drop_length]

theorem store_foldl_set (m : SendCall) (ids : List Uid)
    (store : MessagePath → Option MessageDictionary) (memberId : Uid) :
    (ids.map fun id => WriteQueues.Write.set (m.path id) m.data).foldl WriteQueues.Write.apply
      store (m.path memberId) =
        if memberId ∈ ids then some m.data else store (m.path memberId) := by
  induction ids generalizing store with
  | nil => rfl
  | cons id ids ih =>
    rw [List.map_cons, List.foldl_cons, ih, WriteQueues.Write.apply_eq, WriteQueues.Write.actAt]
    by_cases hid : memberId = id
    · subst hid
      simp [WriteQueues.Write.key, WriteQueues.Write.act]
    · have hpath : m.path id ≠ m.path memberId := fun heq =>
        hid (congrArg MessagePath.memberId heq).symm
      simp [WriteQueues.Write.key, hpath, hid]

theorem store_partlySent (n : ℕ) (memberId : Uid) :
    (partlySent m n).firestore.store (m.path memberId) =
      if memberId ∈ m.memberIds.take n then some m.data else none := by
  rw [partlySent, SendCall.writes, ← List.map_take]
  exact store_foldl_set m _ _ memberId

theorem queue_partlySent {userId : Uid} (n : ℕ) (h : userId ≠ m.senderId) :
    (partlySent m n).firestore.queue userId = [] := by
  simp [partlySent, h]

/-- The reader's copy comes first, and the reader is quick. -/
theorem not_receiptArrives_of_lt (hmembers : m.memberIds.Nodup)
    (hstatus : m.messageDictionary.status ≠ some kREAD) (hreader : reader ∈ m.memberIds)
    (hother : reader ≠ m.senderId) (hmember : memberId ∈ m.memberIds)
    (hlt : m.memberIds.idxOf reader < m.memberIds.idxOf memberId) :
    ¬ ReceiptArrives m reader memberId := by
  intro harrives
  set n := m.memberIds.idxOf reader + 1
  have hview : ∀ memberId, view (partlySent m n).firestore reader (m.path memberId) =
      if memberId ∈ m.memberIds.take n then some m.data else none := by
    intro memberId
    rw [view, queue_partlySent n hother]
    exact store_partlySent n memberId
  have hseen : (view (partlySent m n).firestore reader (m.path reader)).isSome := by
    rw [hview, if_pos ((List.mem_take_iff_idxOf_lt hreader).mpr (Nat.lt_succ_self _))]
    rfl
  have hmissing : (view (partlySent m n).firestore reader (m.path memberId)).isSome = false := by
    rw [hview, if_neg fun hmem => (Nat.not_lt_of_le hlt) ?_]
    · rfl
    · exact (List.mem_take_iff_idxOf_lt hmember).mp hmem
  -- the answer finds no document, and the rest is written after it
  have hrun : Runs.exec step (partlySent m n)
      (.updateMessage reader "" m.messageId m.chatRoomId [memberId] :: .getDocument 0 ::
        List.replicate (m.writes.drop n).length (.commit m.senderId)) =
          some (partlySent m m.writes.length) := by
    have hcall : (partlySent m n).step
        (.updateMessage reader "" m.messageId m.chatRoomId [memberId]) =
          some { partlySent m n with getDocuments := [(reader, m.path memberId, "")] } := rfl
    have hanswer : MessageWorld.step
        { partlySent m n with getDocuments := [(reader, m.path memberId, "")] } (.getDocument 0) =
          some (partlySent m n) := by
      simp only [MessageWorld.step, List.getElem?_cons_zero, Option.map_some, hmissing]
      rfl
    rw [Runs.exec_cons, hcall, Option.bind_some, Runs.exec_cons, hanswer, Option.bind_some]
    exact exec_partlySent n
  have hdone : ∀ userId, (partlySent m m.writes.length).firestore.queue userId = [] := by
    intro userId
    by_cases heq : userId = m.senderId
    · subst heq
      simp [partlySent]
    · exact queue_partlySent _ heq
  have hdistinct : ∀ a ∈ (.sendMessage m :: List.replicate (m.writes.take n).length
      (.commit m.senderId)) ++ .getDocument 0 :: List.replicate (m.writes.drop n).length
        (.commit m.senderId), DistinctMembers a := by
    intro a ha
    simp only [List.cons_append, List.mem_cons, List.mem_append, List.mem_replicate] at ha
    rcases ha with rfl | ⟨-, rfl⟩ | rfl | ⟨-, rfl⟩
    · exact hmembers
    all_goals trivial
  obtain ⟨d, hd, hread⟩ := harrives _ _ "" [memberId] _ _ hdistinct (exec_sendMessage n)
    List.mem_cons_self hseen List.mem_cons_self hrun rfl hdone List.not_mem_nil
  rw [store_partlySent, SendCall.writes, List.length_map, List.take_length, if_pos hmember] at hd
  obtain rfl := Option.some.inj hd
  exact hstatus hread

/-- The receipt of a reader is sure to reach the members up to the reader in the list that the
message has been sent to, and only these. -/
theorem receipt_arrives_iff (hmembers : m.memberIds.Nodup)
    (hstatus : m.messageDictionary.status = some kDELIVERED) (hreader : reader ∈ m.memberIds)
    (hother : reader ≠ m.senderId) (hmember : memberId ∈ m.memberIds) :
    ReceiptArrives m reader memberId ↔
      m.memberIds.idxOf memberId ≤ m.memberIds.idxOf reader := by
  refine ⟨fun harrives => ?_, receiptArrives_of_le hreader hother hmember⟩
  by_contra hlt
  refine not_receiptArrives_of_lt hmembers ?_ hreader hother hmember (not_le.mp hlt) harrives
  rw [hstatus]
  decide

/-- Alice's copy is marked when Bob reads, but not where his is written first. -/
theorem receipt_arrives_alice : ReceiptArrives aliceToBob "bob" "alice" ∧
    ¬ ReceiptArrives { aliceToBob with memberIds := ["bob", "alice"] } "bob" "alice" := by
  constructor
  · refine (receipt_arrives_iff ?_ rfl ?_ ?_ ?_).mpr ?_
    all_goals decide
  · refine (receipt_arrives_iff ?_ rfl ?_ ?_ ?_).not.mpr ?_
    all_goals decide

end MessageWorld

end LiChat
