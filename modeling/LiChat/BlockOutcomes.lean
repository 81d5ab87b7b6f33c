import LiChat.BlockedUsers
import LiChat.PrivateRooms
import LiChat.RecentCompletion

/-!
# What blocking leaves behind

The button of a profile blocks and unblocks, the swipe on a blocked user unblocks.  Both send
an update of the profile that may fail; the button also asks for the Recents of the pair and
deletes them.
-/

namespace LiChat
open WriteBack Toggle

/-- The User document, the stored profile, the rows of the screen of blocked users and the
Recents. -/
structure BlockState where
  document : Dictionary
  localCopy : Dictionary
  blockedUserArray : List FUser
  recents : Recents

/-- A press of the button in the profile of a user, or the swipe on a row. -/
inductive BlockTap where
  | blockButtonPressed (user : FUser)
  | commit (row : ℕ)

namespace BlockState

/-- The answer to `updateCurrentUserInFirestore`. -/
def finish (updated : Bool) (call : Call String Value) (s : BlockState) : BlockState :=
  if updated then { s with document := merge s.document call.values, localCopy := call.copy } else s

/-- `getRecentsFor` is called for both directions and does not wait for the update; its query
may fail as well. -/
def blockButtonPressed (currentId : Uid) (clock : Clock) (updated queried : Bool) (user : FUser)
    (s : BlockState) : Option BlockState := do
  let call ← (BlockAction.blockButtonPressed clock user.objectId).issue s.localCopy
  let s := s.finish updated call
  some { s with recents := if queried then (blockUser currentId user).run s.recents else s.recents }

/-- The row is removed before the update is sent. -/
def commit (clock : Clock) (updated : Bool) (row : ℕ) (s : BlockState) : Option BlockState := do
  let user ← s.blockedUserArray[row]?
  let call ← (BlockAction.unblock clock user.objectId).issue s.localCopy
  let s := { s with blockedUserArray := s.blockedUserArray.eraseIdx row }
  some (s.finish updated call)

/-- One tap, with the answers to the update and to the query; `none` is a trap. -/
def tap (currentId : Uid) (clock : Clock) (updated queried : Bool) (s : BlockState) :
    BlockTap → Option BlockState
  | .blockButtonPressed user => s.blockButtonPressed currentId clock updated queried user
  | .commit row => s.commit clock updated row

end BlockState

namespace BlockTap

def target (s : BlockState) : BlockTap → Option Uid
  | .blockButtonPressed user => some user.objectId
  | .commit row => s.blockedUserArray[row]?.map FUser.objectId

def Unblocks (s : BlockState) : BlockTap → Prop
  | .blockButtonPressed user => user.objectId ∈ BlockAction.listed s.localCopy
  | .commit _ => True

end BlockTap

/-- A block deletes Recents of the pair only with its update; unblocking leaves all Recents and
takes the user, and nobody else, off the list; and a failed update leaves everything. -/
structure Matching (currentId : Uid) (updated : Bool) (t : BlockTap) (id : Uid) (s s' : BlockState) :
    Prop where
  blocks : ¬ t.Unblocks s → (∃ r ∈ s.recents.all, r.chatRoomId = privateChatRoomId currentId id ∧
    r ∉ s'.recents.all) → updated = true
  recents : t.Unblocks s → s'.recents.all = s.recents.all
  unblocks : t.Unblocks s → updated = true →
    BlockAction.listed s'.document = (BlockAction.listed s.document).filter (· ≠ id) ∧
      BlockAction.listed s'.localCopy = (BlockAction.listed s.localCopy).filter (· ≠ id)
  fails : updated = false →
    BlockAction.listed s'.document = BlockAction.listed s.document ∧
      BlockAction.listed s'.localCopy = BlockAction.listed s.localCopy ∧
      s'.blockedUserArray = s.blockedUserArray ∧ s'.recents.all = s.recents.all

/-- The tap does not trap and leaves what it should. -/
def Matches (currentId : Uid) (clock : Clock) (updated queried : Bool) (t : BlockTap)
    (s : BlockState) : Prop :=
  ∃ id s', t.target s = some id ∧ s.tap currentId clock updated queried t = some s' ∧
    Matching currentId updated t id s s'

namespace BlockState
variable (s : BlockState)

/-- There is no Recent of the pair, or the query for them fails. -/
def NoRecents (currentId : Uid) (queried : Bool) (id : Uid) : Prop :=
  queried = true → ∀ r ∈ s.recents.all, r.chatRoomId ≠ privateChatRoomId currentId id

/-- The stored profile lists the user once, and the same others as the document. -/
def ListedOnce (id : Uid) : Prop :=
  (BlockAction.listed s.localCopy).count id = 1 ∧
    (BlockAction.listed s.localCopy).filter (· ≠ id) = (BlockAction.listed s.document).filter (· ≠ id)

/-- The button asks for no Recents where it unblocks or its update fails; a swipe needs an
update that succeeds. -/
def MatchesWhen (currentId : Uid) (updated queried : Bool) : BlockTap → Prop
  | .blockButtonPressed user =>
    (user.objectId ∈ BlockAction.listed s.localCopy ∨ updated = false →
      s.NoRecents currentId queried user.objectId) ∧
    (user.objectId ∈ BlockAction.listed s.localCopy → updated = true → s.ListedOnce user.objectId)
  | .commit row =>
    updated = true ∧ ∃ user, s.blockedUserArray[row]? = some user ∧ s.ListedOnce user.objectId

end BlockState

namespace BlockAction

theorem issue_eq {a : BlockAction} {d : Dictionary} {user : FUser} {ids : List Uid}
    (hcurrent : FUser.ofDictionary a.clock.formatter a.clock.now d = some user)
    (hids : a.newBlockedIds (listed d) = some ids) :
    ∃ call, a.issue d = some call ∧ (∀ document, listed (merge document call.values) = ids) ∧
      listed call.copy = ids := by
  rw [listed_of_ofDictionary hcurrent] at hids
  have hissue : (a.issue d).isSome := by
    simp only [issue, hcurrent, hids, Option.bind_eq_bind, Option.bind_some]
    rfl
  obtain ⟨call, hcall⟩ := Option.isSome_iff_exists.mp hissue
  obtain ⟨ids', hids', hvalues, hcopy⟩ := issue_spec hcall
  rw [listed_of_ofDictionary hcurrent, hids, Option.some.injEq] at hids'
  subst hids'
  refine ⟨call, hcall, fun document => listed_of_strings ?_, listed_of_strings hcopy⟩
  rw [merge, hvalues, Option.some_or]

end BlockAction

namespace BlockState
variable {s : BlockState} {currentId : Uid} {clock : Clock} {updated queried : Bool} {user : FUser}

theorem listed_finish (updated : Bool) {call : Call String Value} {ids : List Uid}
    (hvalues : ∀ document, BlockAction.listed (merge document call.values) = ids)
    (hcopy : BlockAction.listed call.copy = ids) (s : BlockState) :
    (BlockAction.listed (s.finish updated call).document =
        if updated then ids else BlockAction.listed s.document) ∧
      (BlockAction.listed (s.finish updated call).localCopy =
        if updated then ids else BlockAction.listed s.localCopy) ∧
      (s.finish updated call).blockedUserArray = s.blockedUserArray ∧
      (s.finish updated call).recents = s.recents := by
  unfold finish
  cases updated with
  | true => exact ⟨hvalues s.document, hcopy, rfl, rfl⟩
  | false => exact ⟨rfl, rfl, rfl, rfl⟩

/-- Erasing the user leaves what it should in both profiles exactly when he is listed once. -/
theorem erase_iff_listedOnce {id : Uid} (hmem : id ∈ BlockAction.listed s.localCopy) :
    ((BlockAction.listed s.localCopy).erase id = (BlockAction.listed s.document).filter (· ≠ id) ∧
      (BlockAction.listed s.localCopy).erase id = (BlockAction.listed s.localCopy).filter (· ≠ id)) ↔
      s.ListedOnce id := by
  have hpos : 0 < (BlockAction.listed s.localCopy).count id := List.count_pos_iff.mpr hmem
  rw [erase_eq_filter_iff, ListedOnce]
  constructor
  · rintro ⟨hdocument, hcount⟩
    exact ⟨by omega, (erase_eq_filter_iff.mpr hcount).symm.trans hdocument⟩
  · rintro ⟨hcount, hothers⟩
    have hle : (BlockAction.listed s.localCopy).count id ≤ 1 := by omega
    exact ⟨(erase_eq_filter_iff.mpr hle).trans hothers, hle⟩

theorem recents_eq_iff (user : FUser) :
    (if queried then (blockUser currentId user).run s.recents else s.recents).all = s.recents.all ↔
      s.NoRecents currentId queried user.objectId := by
  cases queried with
  | false => simp [NoRecents]
  | true =>
    have hrun : ((blockUser currentId user).run s.recents).all =
        s.recents.all.filter fun r => r.chatRoomId ≠ privateChatRoomId currentId user.objectId :=
      Operation.all_run_getRecentsFor _ _
    rw [if_pos rfl, hrun, List.filter_eq_self]
    simp [NoRecents]

/-- What the button does: the list is toggled if the update succeeds, and the Recents of the
pair go in any case. -/
theorem button_spec {currentUser : FUser}
    (hcurrent : FUser.ofDictionary clock.formatter clock.now s.localCopy = some currentUser)
    (user : FUser) (currentId : Uid) (updated queried : Bool) :
    ∃ s', s.tap currentId clock updated queried (.blockButtonPressed user) = some s' ∧
      (BlockAction.listed s'.document = if updated
        then toggle user.objectId (BlockAction.listed s.localCopy)
        else BlockAction.listed s.document) ∧
      (BlockAction.listed s'.localCopy = if updated
        then toggle user.objectId (BlockAction.listed s.localCopy)
        else BlockAction.listed s.localCopy) ∧
      s'.blockedUserArray = s.blockedUserArray ∧
      (s'.recents.all = s.recents.all ↔ s.NoRecents currentId queried user.objectId) := by
  obtain ⟨call, hcall, hvalues, hcopy⟩ := BlockAction.issue_eq
    (a := .blockButtonPressed clock user.objectId) hcurrent rfl
  obtain ⟨hdocument, hlocal, harray, hrecents⟩ := listed_finish updated hvalues hcopy s
  refine ⟨{ s.finish updated call with
    recents := if queried then (blockUser currentId user).run (s.finish updated call).recents
      else (s.finish updated call).recents }, ?_, hdocument, hlocal, harray, ?_⟩
  · simp only [tap, blockButtonPressed, hcall, Option.bind_eq_bind, Option.bind_some]
  · rw [hrecents]
    exact recents_eq_iff user

theorem button_matches_iff {currentUser : FUser}
    (hcurrent : FUser.ofDictionary clock.formatter clock.now s.localCopy = some currentUser)
    (user : FUser) : Matches currentId clock updated queried (.blockButtonPressed user) s ↔
      s.MatchesWhen currentId updated queried (.blockButtonPressed user) := by
  obtain ⟨s', htap, hdocument, hlocal, harray, hstay⟩ :=
    button_spec hcurrent user currentId updated queried
  have hunblock : user.objectId ∈ BlockAction.listed s.localCopy → updated = true →
      ((BlockAction.listed s'.document = (BlockAction.listed s.document).filter (· ≠ user.objectId) ∧
        BlockAction.listed s'.localCopy =
          (BlockAction.listed s.localCopy).filter (· ≠ user.objectId)) ↔ s.ListedOnce user.objectId) := by
    intro hmem hupdated
    rw [← erase_iff_listedOnce hmem, hdocument, hlocal, if_pos hupdated, if_pos hupdated, toggle,
      if_pos hmem]
  constructor
  · rintro ⟨id, s₁, hid, hs₁, hmatching⟩
    obtain rfl := Option.some.inj hid
    obtain rfl := Option.some.inj (htap.symm.trans hs₁)
    refine ⟨?_, fun hmem hupdated => (hunblock hmem hupdated).mp (hmatching.unblocks hmem hupdated)⟩
    rintro (hmem | hfails)
    · exact hstay.mp (hmatching.recents hmem)
    · exact hstay.mp (hmatching.fails hfails).2.2.2
  · rintro ⟨hnone, honce⟩
    refine ⟨user.objectId, s', rfl, htap, ?_, fun hmem => hstay.mpr (hnone (.inl hmem)),
      fun hmem hupdated => (hunblock hmem hupdated).mpr (honce hmem hupdated), fun hfails => ?_⟩
    · rintro - ⟨r, hr, -, hgone⟩
      by_contra hfails
      rw [hstay.mpr (hnone (.inr (eq_false_of_ne_true hfails)))] at hgone
      exact hgone hr
    · have hnot : ¬ updated = true := by simp [hfails]
      rw [if_neg hnot] at hdocument hlocal
      exact ⟨hdocument, hlocal, harray, hstay.mpr (hnone (.inr hfails))⟩

/-- What the swipe does: the row goes in any case, and it traps for a user who is not
listed. -/
theorem swipe_spec {currentUser : FUser}
    (hcurrent : FUser.ofDictionary clock.formatter clock.now s.localCopy = some currentUser)
    {row : ℕ} (hrow : s.blockedUserArray[row]? = some user) (currentId : Uid)
    (updated queried : Bool) :
    (user.objectId ∉ BlockAction.listed s.localCopy →
      s.tap currentId clock updated queried (.commit row) = none) ∧
    (user.objectId ∈ BlockAction.listed s.localCopy →
      ∃ s', s.tap currentId clock updated queried (.commit row) = some s' ∧
        (BlockAction.listed s'.document = if updated
          then (BlockAction.listed s.localCopy).erase user.objectId
          else BlockAction.listed s.document) ∧
        (BlockAction.listed s'.localCopy = if updated
          then (BlockAction.listed s.localCopy).erase user.objectId
          else BlockAction.listed s.localCopy) ∧
        s'.blockedUserArray = s.blockedUserArray.eraseIdx row ∧ s'.recents = s.recents) := by
  constructor
  · intro hmem
    have hnone : (BlockAction.unblock clock user.objectId).issue s.localCopy = none := by
      rw [BlockAction.listed_of_ofDictionary hcurrent] at hmem
      have hids : (BlockAction.unblock clock user.objectId).newBlockedIds currentUser.blockedUsers =
          none := if_neg hmem
      simp only [BlockAction.issue, BlockAction.clock, hcurrent, hids, Option.bind_eq_bind,
        Option.bind_some, Option.bind_none]
    simp only [tap, commit, hrow, hnone, Option.bind_eq_bind, Option.bind_some, Option.bind_none]
  · intro hmem
    obtain ⟨call, hcall, hvalues, hcopy⟩ := BlockAction.issue_eq
      (a := .unblock clock user.objectId) hcurrent (if_pos hmem)
    obtain ⟨hdocument, hlocal, harray, hrecents⟩ := listed_finish updated hvalues hcopy
      { s with blockedUserArray := s.blockedUserArray.eraseIdx row }
    refine ⟨_, ?_, hdocument, hlocal, harray, hrecents⟩
    simp only [tap, commit, hrow, hcall, Option.bind_eq_bind, Option.bind_some]

theorem swipe_matches_iff {currentUser : FUser}
    (hcurrent : FUser.ofDictionary clock.formatter clock.now s.localCopy = some currentUser)
    {row : ℕ} (hrow : row < s.blockedUserArray.length) :
    Matches currentId clock updated queried (.commit row) s ↔
      s.MatchesWhen currentId updated queried (.commit row) := by
  obtain ⟨user, huser⟩ : ∃ user, s.blockedUserArray[row]? = some user :=
    ⟨_, List.getElem?_eq_getElem hrow⟩
  have htarget : (BlockTap.commit row).target s = some user.objectId := by
    rw [BlockTap.target, huser, Option.map_some]
  obtain ⟨htrap, hswipe⟩ := swipe_spec hcurrent huser currentId updated queried
  constructor
  · rintro ⟨id, s', hid, htap, hmatching⟩
    obtain rfl := Option.some.inj (htarget.symm.trans hid)
    have hmem : user.objectId ∈ BlockAction.listed s.localCopy := by
      by_contra hmem
      rw [htrap hmem] at htap
      cases htap
    obtain ⟨s₁, htap₁, hdocument, hlocal, harray, -⟩ := hswipe hmem
    obtain rfl := Option.some.inj (htap₁.symm.trans htap)
    cases updated with
    | false =>
      -- the row is gone although the update has failed
      have hsame := (hmatching.fails rfl).2.2.1
      rw [harray] at hsame
      have hlength := congrArg List.length hsame
      rw [List.length_eraseIdx_of_lt hrow] at hlength
      omega
    | true =>
      rw [if_pos rfl] at hdocument hlocal
      have herase := hmatching.unblocks trivial rfl
      rw [hdocument, hlocal, erase_iff_listedOnce hmem] at herase
      exact ⟨rfl, user, huser, herase⟩
  · rintro ⟨rfl, user', huser', honce⟩
    obtain rfl := Option.some.inj (huser.symm.trans huser')
    have hmem : user.objectId ∈ BlockAction.listed s.localCopy := by
      apply List.count_pos_iff.mp
      rw [honce.1]
      exact Nat.one_pos
    obtain ⟨s', htap, hdocument, hlocal, -, hrecents⟩ := hswipe hmem
    rw [if_pos rfl] at hdocument hlocal
    refine ⟨user.objectId, s', htarget, htap, fun hblocks => absurd trivial hblocks,
      fun _ => by rw [hrecents], fun _ _ => ?_, nofun⟩
    rw [hdocument, hlocal]
    exact (erase_iff_listedOnce hmem).mpr honce

end BlockState

open BlockState

/-- For every profile, all Recents and all answers: blocking and unblocking leave what they
should exactly when the button, where it unblocks or its update fails, finds no Recents of the
pair, when a swipe's update succeeds, and when a user to be unblocked is listed once. -/
theorem blocking_matches_iff (currentId : Uid) (clock : Clock) (updated queried : Bool)
    (s : BlockState) (t : BlockTap) (currentUser : FUser)
    (hcurrent : FUser.ofDictionary clock.formatter clock.now s.localCopy = some currentUser)
    (hrow : ∀ row, t = .commit row → row < s.blockedUserArray.length) :
    Matches currentId clock updated queried t s ↔ s.MatchesWhen currentId updated queried t := by
  cases t with
  | blockButtonPressed user => exact button_matches_iff hcurrent user
  | commit row => exact swipe_matches_iff hcurrent (hrow row rfl)

/-- Ann, who blocks the given users; Bea is shown as blocked. -/
def annBlocking (blockedUsers : List Uid) (recents : Recents) : BlockState where
  document := Dictionary.ofList [(kOBJECTID, .string "ann"), (kBLOCKEDUSERID, .strings blockedUsers)]
  localCopy := Dictionary.ofList [(kOBJECTID, .string "ann"), (kBLOCKEDUSERID, .strings blockedUsers)]
  blockedUserArray := [userWithId "bea"]
  recents := recents

theorem annBlocking_readable (blockedUsers : List Uid) (recents : Recents) :
    ∃ currentUser, FUser.ofDictionary BlockAction.noon.formatter BlockAction.noon.now
      (annBlocking blockedUsers recents).localCopy = some currentUser := ⟨_, rfl⟩

/-- Ann has a chat with Bea.  She blocks her, which deletes the chat; or she takes her off the
list by a swipe, which leaves it. -/
theorem blocking_matches_with_recents :
    Matches "ann" BlockAction.noon true true (.blockButtonPressed (userWithId "bea"))
      (annBlocking ["carl"] Operation.annsRecent) ∧
    Matches "ann" BlockAction.noon true true (.commit 0)
      (annBlocking ["bea", "carl"] Operation.annsRecent) := by
  obtain ⟨blocking, hblocking⟩ := annBlocking_readable ["carl"] Operation.annsRecent
  obtain ⟨unblocking, hunblocking⟩ := annBlocking_readable ["bea", "carl"] Operation.annsRecent
  refine ⟨(blocking_matches_iff "ann" BlockAction.noon true true
    (annBlocking ["carl"] Operation.annsRecent) (.blockButtonPressed (userWithId "bea")) blocking
    hblocking fun row hrow => ?_).mpr ⟨fun hlisted => ?_, fun hlisted _ => ?_⟩,
    (blocking_matches_iff "ann" BlockAction.noon true true
    (annBlocking ["bea", "carl"] Operation.annsRecent) (.commit 0) unblocking hunblocking
    fun row hrow => ?_).mpr ⟨rfl, _, rfl, by decide, rfl⟩⟩
  · cases hrow
  · exact absurd hlisted (by decide)
  · exact absurd hlisted (by decide)
  · cases hrow
    exact Nat.one_pos

/-- The chat with Bea is deleted although blocking her fails, and when she is unblocked; and
she leaves the screen although unblocking her fails. -/
theorem blocking_mismatches :
    ¬ Matches "ann" BlockAction.noon false true (.blockButtonPressed (userWithId "bea"))
      (annBlocking [] Operation.annsRecent) ∧
    ¬ Matches "ann" BlockAction.noon true true (.blockButtonPressed (userWithId "bea"))
      (annBlocking ["bea"] Operation.annsRecent) ∧
    ¬ Matches "ann" BlockAction.noon false true (.commit 0)
      (annBlocking ["bea"] Operation.annsRecent) := by
  have hrecent : ∃ r ∈ Operation.annsRecent.all, r.chatRoomId = privateChatRoomId "ann" "bea" := by
    decide +kernel
  obtain ⟨r, hr, hroom⟩ := hrecent
  refine ⟨fun h => ?_, fun h => ?_, fun h => ?_⟩
  · obtain ⟨currentUser, hcurrent⟩ := annBlocking_readable [] Operation.annsRecent
    exact ((button_matches_iff hcurrent _).mp h).1 (.inr rfl) rfl r hr hroom
  · obtain ⟨currentUser, hcurrent⟩ := annBlocking_readable ["bea"] Operation.annsRecent
    exact ((button_matches_iff hcurrent _).mp h).1 (.inl (by decide)) rfl r hr hroom
  · obtain ⟨currentUser, hcurrent⟩ := annBlocking_readable ["bea"] Operation.annsRecent
    exact nomatch ((swipe_matches_iff hcurrent (Nat.one_pos)).mp h).1

end LiChat
