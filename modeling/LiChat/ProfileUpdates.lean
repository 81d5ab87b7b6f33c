import LiChat.General.WriteBack
import LiChat.Session

/-!
# Overlapping updates of the profile

`updateCurrentUserInFirestore` sends the given values to the User document and, when
that has succeeded, stores a copy of the whole profile that it has made before.
-/

namespace LiChat
open WriteBack

/-- A call of `updateCurrentUserInFirestore` on a device with a stored profile. -/
structure ProfileUpdate where
  clock : Clock
  withValues : Dictionary

namespace ProfileUpdate

def updatedAt (c : ProfileUpdate) : String := c.clock.formatter.string c.clock.now

def tempWithValues (c : ProfileUpdate) : Dictionary := fun key =>
  if key = kUPDATEDAT then some (.string c.updatedAt) else c.withValues key

/-- The call sends `withValues` and keeps the changed copy of the profile for its
callback. -/
def issue (c : ProfileUpdate) (dictionary : Dictionary) : Option (Call String Value) :=
  some ⟨c.withValues, dictionary.setValuesForKeys c.tempWithValues⟩

theorem updateCurrentUserInFirestore_eq {s : Session} {uid : Uid} {dictionary : Dictionary}
    (hauth : s.auth = some uid) (hcurrent : s.currentUser = some dictionary) (clock : Clock)
    (withValues : WithValues) :
    ∃ call, issue ⟨clock, withValues.values⟩ dictionary = some call ∧
      call.values = withValues.values ∧
      s.updateCurrentUserInFirestore clock withValues =
        some { s with requests := s.requests ++ [.updateData uid withValues call.copy] } := by
  refine ⟨_, rfl, rfl, ?_⟩
  simp only [Session.updateCurrentUserInFirestore, hcurrent, hauth]
  rfl

/-- For every run of calls and callbacks in the order of issue, `c` the call issued last:
when all callbacks have run, the stored profile agrees with the User document on every
key that any call has sent exactly when the profile had, at the time of `c`, the latest
value sent for every such key that `c` does not send, and updatedAt has not been sent
unless with the time of `c`. -/
theorem profiles_agree_iff (remote localCopy : Dictionary) (before after : List (Action ProfileUpdate))
    (c : ProfileUpdate) (s s' : State String Value)
    (hbefore : Runs.exec (step issue) (init remote localCopy) before = some s)
    (hafter : Runs.exec (step issue) s (.issue c :: after) = some s')
    (hlast : ∀ a ∈ after, ∀ c', a ≠ .issue c')
    (horder : Runs.Guarded (step issue) InOrder (init remote localCopy) (before ++ .issue c :: after))
    (hfinished : Finished s') :
    (∀ key, (∃ call ∈ s'.calls, (call.values key).isSome) → s'.localCopy key = s'.remote key) ↔
      (∀ key value, key ≠ kUPDATEDAT → c.withValues key = none →
        lastWritten s.calls key = some value → s.localCopy key = some value) ∧
      ∀ value, (c.withValues kUPDATEDAT).or (lastWritten s.calls kUPDATEDAT) = some value →
        value = .string c.updatedAt := by
  have hrun : Runs.exec (step issue) (init remote localCopy) (before ++ .issue c :: after) = some s' := by
    rw [Runs.exec_append, hbefore, Option.bind_some, hafter]
  set call : Call String Value :=
    ⟨c.withValues, Dictionary.setValuesForKeys s.localCopy c.tempWithValues⟩ with hcall
  have hcalls : s'.calls = s.calls ++ [call] := by
    rw [Runs.exec_cons] at hafter
    exact calls_of_no_issue hafter hlast
  have hlocal : s'.localCopy = call.copy := by
    rw [localCopy_finished hrun horder hfinished, hcalls, List.getLast?_concat, Option.elim_some]
  -- what is written to a key, and what is there in the end
  have hwritten : ∀ key, (∃ call ∈ s'.calls, (call.values key).isSome) ↔
      ((c.withValues key).or (lastWritten s.calls key)).isSome := by
    intro key
    rw [← lastWritten_isSome, hcalls, lastWritten_concat]
  have hremote : ∀ key, s'.remote key =
      ((c.withValues key).or (lastWritten s.calls key)).or (remote key) := by
    intro key
    rw [(composed_reached hrun).remote_finished hfinished, hcalls, mergeAll_apply,
      lastWritten_concat]
  simp only [hwritten, hremote, hlocal, hcall, Dictionary.setValuesForKeys, tempWithValues]
  constructor
  · intro h
    refine ⟨fun key value hkey hnone hvalue => ?_, fun value hvalue => ?_⟩
    · have hagree := h key (by rw [hnone, hvalue]; rfl)
      rw [if_neg hkey, hnone, hvalue] at hagree
      exact hagree
    · have hagree := h kUPDATEDAT (by rw [hvalue]; rfl)
      rw [if_pos rfl, hvalue] at hagree
      exact (Option.some.inj hagree).symm
  · rintro ⟨hkeys, htime⟩ key hkey
    by_cases hupdated : key = kUPDATEDAT
    · subst hupdated
      obtain ⟨value, hvalue⟩ := Option.isSome_iff_exists.mp hkey
      rw [if_pos rfl, hvalue, htime value hvalue]
      rfl
    · rw [if_neg hupdated]
      cases hnew : c.withValues key with
      | some value => rfl
      | none =>
        obtain ⟨value, hvalue⟩ := Option.isSome_iff_exists.mp hkey
        rw [hnew, Option.none_or] at hvalue
        rw [hvalue, hkeys key value hupdated hnew hvalue]
        rfl

def annOffline : Dictionary :=
  Dictionary.ofList [(kOBJECTID, .string "ann"), (kISONLINE, .bool false), (kPUSHID, .string "")]

/-- `applicationDidBecomeActive` and `applicationDidEnterBackground` -/
def setsIsOnline (isOnline : Bool) : ProfileUpdate :=
  ⟨⟨dateFormatter 0, 0⟩, Dictionary.ofList [(kISONLINE, .bool isOnline)]⟩

/-- `updateCurrentUserOneSignalId` -/
def setsPushId (newId : String) : ProfileUpdate :=
  ⟨⟨dateFormatter 0, 0⟩, Dictionary.ofList [(kPUSHID, .string newId)]⟩

theorem profiles_agree_one_key :
    ∃ s, Runs.exec (step issue) (init annOffline annOffline) [.issue (setsIsOnline true),
        .issue (setsIsOnline false), .apply, .apply, .callback 0, .callback 1] = some s ∧
      ∀ key, (∃ call ∈ s.calls, (call.values key).isSome) → s.localCopy key = s.remote key := by
  refine ⟨_, rfl, (profiles_agree_iff annOffline annOffline [.issue (setsIsOnline true)]
    [.apply, .apply, .callback 0, .callback 1] (setsIsOnline false) _ _ rfl rfl ?_ ?_ ?_).mpr ?_⟩
  · simp
  · decide
  · exact ⟨rfl, by decide⟩
  · constructor
    · -- both calls send the same key
      intro key value _ hnone hvalue
      have hkey : key ≠ kISONLINE := by
        rintro rfl
        exact absurd hnone (by decide)
      have hvalues : (setsIsOnline true).withValues key = none := by
        simp [setsIsOnline, Dictionary.ofList, List.lookup_cons, beq_false_of_ne hkey]
      have hlast : lastWritten [⟨(setsIsOnline true).withValues,
          annOffline.setValuesForKeys (setsIsOnline true).tempWithValues⟩] key = none := by
        simp [lastWritten, hvalues]
      exact absurd (hlast.symm.trans hvalue) (by simp)
    · intro value hvalue
      cases hvalue

/-- The app becomes active while the push id is being set: the stored profile still says
that Ann is not online. -/
theorem profiles_disagree_on_isOnline :
    ∃ s, Runs.exec (step issue) (init annOffline annOffline) [.issue (setsIsOnline true),
        .issue (setsPushId "p"), .apply, .apply, .callback 0, .callback 1] = some s ∧
      Finished s ∧ (∃ call ∈ s.calls, (call.values kISONLINE).isSome) ∧
      s.remote kISONLINE = some (.bool true) ∧ s.localCopy kISONLINE = some (.bool false) := by
  refine ⟨_, rfl, ⟨rfl, by decide⟩, ⟨_, List.mem_cons_self, ?_⟩, ?_, ?_⟩
  all_goals decide

end ProfileUpdate

end LiChat
