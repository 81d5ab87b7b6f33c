import LiChat.General.Toggle
import LiChat.ProfileUpdates
import Mathlib.Data.Finset.Basic

/-!
# Blocking and unblocking

Both actions compute the whole list of blocked users from the profile that is stored on
the device, which changes only in the callbacks of earlier actions.
-/

namespace LiChat
open WriteBack Toggle

/-- A press of the block button in the profile of a user, or the unblock swipe on the
row of one. -/
inductive BlockAction where
  | blockButtonPressed (clock : Clock) (objectId : Uid)
  | unblock (clock : Clock) (userIdToUnblock : Uid)

namespace BlockAction

def clock : BlockAction → Clock
  | blockButtonPressed clock _ => clock
  | unblock clock _ => clock

/-- The new list of blocked users.  The swipe traps for a user who is not in the list. -/
def newBlockedIds : BlockAction → List Uid → Option (List Uid)
  | blockButtonPressed _ objectId, currentBlockedIds => some (toggle objectId currentBlockedIds)
  | unblock _ userIdToUnblock, tempBlockedUsers =>
    if userIdToUnblock ∈ tempBlockedUsers then some (tempBlockedUsers.erase userIdToUnblock) else none

def issue (a : BlockAction) (dictionary : Dictionary) : Option (Call String Value) := do
  let currentUser ← FUser.ofDictionary a.clock.formatter a.clock.now dictionary
  let blockedIds ← a.newBlockedIds currentUser.blockedUsers
  ProfileUpdate.issue ⟨a.clock, Dictionary.ofList [(kBLOCKEDUSERID, .strings blockedIds)]⟩ dictionary

/-- What the action is meant to do with the blocked users. -/
def changed (blocked : Finset Uid) : BlockAction → Finset Uid
  | blockButtonPressed _ objectId =>
    if objectId ∈ blocked then blocked.erase objectId else insert objectId blocked
  | unblock _ userIdToUnblock => blocked.erase userIdToUnblock

def listed (d : Dictionary) : List Uid := (FUser.field Value.asStrings [] d kBLOCKEDUSERID).getD []

def blockedIn (d : Dictionary) : Finset Uid := (listed d).toFinset

/-- The action meets a profile whose list is, apart from the user whom a swipe unblocks
anyway, the list of the latest update that has been sent; callbacks run in the order of
issue. -/
def ReadsLatest (s : State String Value) : Action BlockAction → Prop
  | .issue (blockButtonPressed _ _) => blockedIn s.localCopy = blockedIn s.settled
  | .issue (unblock _ userIdToUnblock) =>
    (blockedIn s.localCopy).erase userIdToUnblock = (blockedIn s.settled).erase userIdToUnblock
  | a => InOrder s a

instance (s : State String Value) : (a : Action BlockAction) → Decidable (ReadsLatest s a)
  | .issue (blockButtonPressed _ _) => inferInstanceAs (Decidable (_ = _))
  | .issue (unblock _ _) => inferInstanceAs (Decidable (_ = _))
  | .apply => isTrue trivial
  | .callback n => inferInstanceAs (Decidable (n = s.returned.length))

theorem ReadsLatest.inOrder {s : State String Value} {a : Action BlockAction} (h : ReadsLatest s a) :
    InOrder s a := by
  cases a with
  | issue c => trivial
  | apply => trivial
  | callback n => exact h

theorem listed_of_ofDictionary {f : DateFormatter} {now : Date} {d : Dictionary} {user : FUser}
    (h : FUser.ofDictionary f now d = some user) : listed d = user.blockedUsers := by
  obtain ⟨v, -, h⟩ := Option.bind_eq_some_iff.mp h
  obtain ⟨objectId, -, h⟩ := Option.bind_eq_some_iff.mp h
  -- the nine fields up to the contacts, and after the list the three others
  iterate 9 obtain ⟨_, -, h⟩ := Option.bind_eq_some_iff.mp h
  obtain ⟨_, -, h⟩ := Option.bind_eq_some_iff.mp h
  obtain ⟨blockedUsers, hblocked, h⟩ := Option.bind_eq_some_iff.mp h
  iterate 3 obtain ⟨_, -, h⟩ := Option.bind_eq_some_iff.mp h
  obtain rfl := Option.some.inj h
  rw [listed, hblocked, Option.getD_some]

theorem listed_of_strings {d : Dictionary} {ids : List Uid}
    (h : d kBLOCKEDUSERID = some (.strings ids)) : listed d = ids := by
  simp [listed, FUser.field, h, Value.asStrings]

theorem newBlockedIds_spec {a : BlockAction} {ids ids' : List Uid} (hnodup : ids.Nodup)
    (h : a.newBlockedIds ids = some ids') :
    ids'.Nodup ∧ ids'.toFinset = changed ids.toFinset a := by
  cases a with
  | blockButtonPressed clock objectId =>
    obtain rfl := Option.some.inj h
    refine ⟨nodup_toggle hnodup, ?_⟩
    ext u
    by_cases hu : u = objectId
    · subst hu
      rw [List.mem_toFinset, mem_toggle_self hnodup]
      by_cases hmem : u ∈ ids <;> simp [changed, hmem]
    · rw [List.mem_toFinset, mem_toggle_of_ne hu]
      by_cases hmem : objectId ∈ ids <;> simp [changed, hmem, hu]
  | unblock clock userIdToUnblock =>
    simp only [newBlockedIds, Option.ite_none_right_eq_some, Option.some.injEq] at h
    obtain ⟨-, rfl⟩ := h
    refine ⟨hnodup.erase _, ?_⟩
    ext u
    simp [changed, hnodup.mem_erase_iff]

theorem issue_spec {a : BlockAction} {dictionary : Dictionary} {call : Call String Value}
    (h : a.issue dictionary = some call) : ∃ ids, a.newBlockedIds (listed dictionary) = some ids ∧
      call.values kBLOCKEDUSERID = some (.strings ids) ∧
      call.copy kBLOCKEDUSERID = some (.strings ids) := by
  obtain ⟨user, huser, h⟩ := Option.bind_eq_some_iff.mp h
  obtain ⟨ids, hids, h⟩ := Option.bind_eq_some_iff.mp h
  obtain rfl := Option.some.inj h
  exact ⟨ids, listed_of_ofDictionary huser ▸ hids, rfl, rfl⟩

/-- The users in `blocked` are those that the document will list once all updates have
arrived, and no list names a user twice. -/
structure Blocks (blocked : Finset Uid) (s : State String Value) : Prop where
  applied : s.applied ≤ s.calls.length
  nodup : (listed s.localCopy).Nodup
  calls : ∀ call ∈ s.calls, ∃ ids : List Uid, ids.Nodup ∧
    call.values kBLOCKEDUSERID = some (.strings ids) ∧ call.copy kBLOCKEDUSERID = some (.strings ids)
  settled : blockedIn s.settled = blocked

theorem blocks_issue {blocked : Finset Uid} {s s' : State String Value} {a : BlockAction}
    (hI : Blocks blocked s) (hC : ReadsLatest s (.issue a)) (h : step issue s (.issue a) = some s') :
    Blocks (changed blocked a) s' := by
  obtain ⟨call, hissue, h⟩ := Option.bind_eq_some_iff.mp h
  obtain rfl := Option.some.inj h
  obtain ⟨ids, hids, hvalues, hcopy⟩ := issue_spec hissue
  obtain ⟨hnodup, hchanged⟩ := newBlockedIds_spec hI.nodup hids
  refine ⟨?_, hI.nodup, fun call' hcall' => ?_, ?_⟩
  · rw [List.length_append]
    exact Nat.le_add_right_of_le hI.applied
  · rcases List.mem_append.mp hcall' with hold | hnew
    · exact hI.calls call' hold
    · rw [List.mem_singleton.mp hnew]
      exact ⟨ids, hnodup, hvalues, hcopy⟩
  · have hlisted : listed (State.settled { s with calls := s.calls ++ [call] }) = ids := by
      apply listed_of_strings
      rw [settled_issue hI.applied, merge, hvalues, Option.some_or]
    rw [blockedIn, hlisted, hchanged, ← hI.settled]
    -- the local list and the latest one differ at most in the user of a swipe
    cases a with
    | blockButtonPressed clock objectId =>
      have hsame : blockedIn s.localCopy = blockedIn s.settled := hC
      rw [← hsame, blockedIn]
    | unblock clock userIdToUnblock => exact hC

theorem blocks_step {blocked : Finset Uid} {s s' : State String Value} {a : Action BlockAction}
    (hI : Blocks blocked s) (hC : ReadsLatest s a) (h : step issue s a = some s') :
    Blocks ((issued [a]).foldl changed blocked) s' := by
  cases a with
  | issue c => exact blocks_issue hI hC h
  | apply =>
    obtain ⟨call, hcall, h⟩ := Option.bind_eq_some_iff.mp h
    obtain rfl := Option.some.inj h
    refine ⟨(List.getElem?_eq_some_iff.mp hcall).1, hI.nodup, hI.calls, ?_⟩
    rw [settled_apply hcall]
    exact hI.settled
  | callback n =>
    obtain ⟨call, hcall, h⟩ := Option.bind_eq_some_iff.mp h
    simp only [Option.ite_none_right_eq_some, Option.some.injEq] at h
    obtain ⟨-, rfl⟩ := h
    obtain ⟨ids, hnodup, -, hcopy⟩ := hI.calls call (List.mem_of_getElem? hcall)
    refine ⟨hI.applied, ?_, hI.calls, hI.settled⟩
    rw [listed_of_strings hcopy]
    exact hnodup

theorem blocks_run {blocked : Finset Uid} {s s' : State String Value}
    {actions : List (Action BlockAction)} (hI : Blocks blocked s)
    (hC : Runs.Guarded (step issue) ReadsLatest s actions)
    (h : Runs.exec (step issue) s actions = some s') :
    Blocks ((issued actions).foldl changed blocked) s' := by
  induction actions generalizing s blocked with
  | nil =>
    obtain rfl := Option.some.inj h
    exact hI
  | cons a actions ih =>
    obtain ⟨t, ht, h⟩ := Option.bind_eq_some_iff.mp h
    obtain ⟨ha, hrest⟩ := Runs.guarded_cons.mp hC t ht
    have hsplit : issued (a :: actions) = issued [a] ++ issued actions :=
      List.filterMap_append (l := [a])
    rw [hsplit, List.foldl_append]
    exact ih (blocks_step hI ha ht) hrest h

/-- In every run whose actions meet the list that was sent last and whose callbacks come
in order: once all callbacks have run, the document and the stored profile block exactly
the users that were blocked at the beginning, changed by each action in turn. -/
theorem blocked_users_kept (remote localCopy : Dictionary) (actions : List (Action BlockAction))
    (s : State String Value) (hsame : blockedIn localCopy = blockedIn remote)
    (hnodup : (listed localCopy).Nodup)
    (hrun : Runs.exec (step issue) (init remote localCopy) actions = some s)
    (hguard : Runs.Guarded (step issue) ReadsLatest (init remote localCopy) actions)
    (hfinished : Finished s) :
    blockedIn s.remote = (issued actions).foldl changed (blockedIn remote) ∧
      blockedIn s.localCopy = (issued actions).foldl changed (blockedIn remote) := by
  have hI : Blocks ((issued actions).foldl changed (blockedIn remote)) s :=
    blocks_run ⟨Nat.zero_le _, hnodup, by rintro call ⟨⟩, rfl⟩ hguard hrun
  have hremote : blockedIn s.remote = (issued actions).foldl changed (blockedIn remote) := by
    rw [← hI.settled, State.settled, hfinished.1, List.drop_length]
    rfl
  refine ⟨hremote, ?_⟩
  have hlocal := localCopy_finished hrun (hguard.imp (I := fun _ => True)
    (Runs.always_of_guarded (fun _ _ _ _ _ _ => trivial) trivial hguard)
    fun _ _ _ h => h.inOrder) hfinished
  cases hlast : s.calls.getLast? with
  | none =>
    have hnone : s.calls = [] := List.getLast?_eq_none_iff.mp hlast
    have hcomposed := (composed_reached hrun).remote_finished hfinished
    rw [hlocal, hlast, Option.elim_none, hsame, ← hremote, hcomposed, hnone]
    rfl
  | some call =>
    obtain ⟨ids, -, hvalues, hcopy⟩ := hI.calls call (List.mem_of_getLast? hlast)
    have hcalls := List.dropLast_append_getLast? call hlast
    rw [← hremote, hlocal, hlast, Option.elim_some,
      (composed_reached hrun).remote_finished hfinished, ← hcalls, mergeAll_concat]
    have hmerged : listed (merge (mergeAll remote s.calls.dropLast) call.values) = ids :=
      listed_of_strings (by rw [merge, hvalues, Option.some_or])
    rw [blockedIn, blockedIn, listed_of_strings hcopy, hmerged]

/-- The profile of a user who blocks nobody. -/
def annBlocksNobody : Dictionary := Dictionary.ofList [(kOBJECTID, .string "ann")]

def noon : Clock := ⟨dateFormatter 0, 0⟩

/-- Ann blocks two users and unblocks one of them, each time after the last callback. -/
def oneAfterTheOther : List (Action BlockAction) :=
  [.issue (.blockButtonPressed noon "bea"), .apply, .callback 0,
    .issue (.blockButtonPressed noon "carl"), .apply, .callback 1, .issue (.unblock noon "bea"),
    .apply, .callback 2]

theorem blocked_users_kept_one_after_the_other :
    ∃ s, Runs.exec (step issue) (init annBlocksNobody annBlocksNobody) oneAfterTheOther = some s ∧
      blockedIn s.remote = (issued oneAfterTheOther).foldl changed (blockedIn annBlocksNobody) ∧
      blockedIn s.localCopy =
        (issued oneAfterTheOther).foldl changed (blockedIn annBlocksNobody) :=
  ⟨_, rfl, blocked_users_kept annBlocksNobody annBlocksNobody oneAfterTheOther _ rfl (by decide) rfl
    (by decide) ⟨rfl, by decide⟩⟩

/-- Two users are blocked before the first callback has run: the first one is not
blocked. -/
theorem first_block_lost :
    ∃ s, Runs.exec (step issue) (init annBlocksNobody annBlocksNobody)
        [.issue (.blockButtonPressed noon "bea"), .issue (.blockButtonPressed noon "carl"), .apply,
          .apply, .callback 0, .callback 1] = some s ∧
      Finished s ∧ blockedIn annBlocksNobody = ∅ ∧ blockedIn s.remote = {"carl"} ∧
      blockedIn s.localCopy = {"carl"} ∧
      [BlockAction.blockButtonPressed noon "bea", .blockButtonPressed noon "carl"].foldl changed ∅ =
        {"bea", "carl"} := by
  refine ⟨_, rfl, ⟨rfl, by decide⟩, ?_, ?_, ?_, ?_⟩
  all_goals decide

end BlockAction

end LiChat
