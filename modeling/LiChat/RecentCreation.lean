import LiChat.RecentOperations

/-!
# Concurrent creation of Recents

`createRecent` looks for existing Recents in one step and creates the missing
ones in later steps, so two calls for one room can both find nothing.
-/

namespace LiChat
open QueryWrite

/-- A call of `createRecent` on some client, with a member list without duplicates. -/
structure CreateCall where
  currentId : Uid
  date : String
  arguments : CreateRecent
  nodup : arguments.members.Nodup

namespace CreateCall

def operation (call : CreateCall) : Operation :=
  .createRecent call.currentId call.date call.arguments

/-- `startPrivateChat` on the device of `currentUser`. -/
def ofStartPrivateChat (currentUser user : FUser) (date : String)
    (h : currentUser.objectId ≠ user.objectId) : CreateCall where
  currentId := currentUser.objectId
  date := date
  arguments := startPrivateChat currentUser user
  nodup := by simpa [startPrivateChat] using h

end CreateCall

/-- At most one Recent for each user and room. -/
def OneRecentEach (s : Recents) : Prop :=
  ∀ r ∈ s.all, ∀ r' ∈ s.all, ∀ u, r.userId = some u → r'.userId = some u →
    r.chatRoomId = r'.chatRoomId → r = r'

section
variable {ι : Type*} [DecidableEq ι] (call : ι → CreateCall)

/-- The calls as a system of interleaved queries and writes. -/
abbrev createSystem : System ι Recents Write := recentSystem fun i => (call i).operation

/-- When a call creates a Recent for `u`, all Recents that `u` owns in the room
were there when the call queried the room. -/
def NoneSinceQuery (c : Config ι Recents Write) : Action ι → Prop
  | .query _ => True
  | .write i => ∀ snapshot w todo u, c.stage i = .writing snapshot (w :: todo) →
      w.Creates (call i).arguments u →
      ∀ r ∈ c.store.all, r.userId = some u → r.chatRoomId = (call i).arguments.chatRoomId →
        r ∈ snapshot.all

/-- The writes that a call still has to make are for distinct users, and none of
them owned a Recent of the room when the call queried it. -/
def Pending (i : ι) (snapshot : Recents) (todo : List Write) : Prop :=
  ∃ users : List Uid, users.Nodup ∧
    List.Forall₂ (fun u w => Write.Creates (call i).arguments u w) users todo ∧
    ∀ u ∈ users, ∀ r ∈ snapshot.all, r.userId = some u →
      r.chatRoomId ≠ (call i).arguments.chatRoomId

omit [DecidableEq ι] in
theorem pending_callback (i : ι) (s : Recents) : Pending call i s ((createSystem call).callback i s) := by
  obtain ⟨hnodup, hmem⟩ := mem_removeOwners (call i).nodup
    (s.inRoom (call i).arguments.chatRoomId)
  show Pending call i s ((createRecent (call i).currentId (call i).date (call i).arguments
    (s.inRoom (call i).arguments.chatRoomId)).getD [])
  cases h : createRecent (call i).currentId (call i).date (call i).arguments
      (s.inRoom (call i).arguments.chatRoomId) with
  | none =>
    exact ⟨[], List.nodup_nil, List.Forall₂.nil, fun u hu => absurd hu List.not_mem_nil⟩
  | some writes =>
    obtain ⟨users, hsub, -, hcreates⟩ := createRecent_creates h
    refine ⟨users, hnodup.sublist hsub, hcreates, fun u hu r hr huser hroom => ?_⟩
    exact ((hmem u).mp (hsub.subset hu)).2 r (Recents.mem_inRoom.mpr ⟨hr, hroom⟩) huser

/-- A created Recent is the only one of its user and room exactly when there was
none before. -/
theorem oneRecentEach_setData {s : Recents} {recent : ℕ → Recent}
    {self : ∀ id, (recent id).recentId = id} {c : CreateRecent} {u : Uid}
    (hw : Write.Creates c u (.setData recent self)) (h : OneRecentEach s) :
    OneRecentEach (s.apply (.setData recent self)) ↔
      ∀ r ∈ s.all, r.userId = some u → r.chatRoomId ≠ c.chatRoomId := by
  have hnew := hw s.next
  have hfresh : recent s.next ∉ s.all := by
    intro hmem
    have hlt := s.fresh _ (Recents.mem_all.mp hmem)
    rw [self] at hlt
    exact lt_irrefl _ hlt
  unfold OneRecentEach
  rw [Recents.all_setData]
  constructor
  · intro hone r hr huser hroom
    have heq := hone r (List.mem_append_left _ hr) (recent s.next)
      (List.mem_append_right _ (List.mem_singleton_self _)) u huser hnew.userId
      (hroom.trans hnew.chatRoomId.symm)
    exact hfresh (heq ▸ hr)
  · -- two old Recents, an old and the new one, the new and an old one, the new one twice
    intro hnone r hr r' hr' v hv hv' hroom
    rcases List.mem_append.mp hr with hr | hr <;> rcases List.mem_append.mp hr' with hr' | hr'
    · exact h r hr r' hr' v hv hv' hroom
    · rw [List.mem_singleton.mp hr'] at hv' hroom
      obtain rfl : u = v := Option.some.inj (hnew.userId.symm.trans hv')
      exact absurd (hroom.trans hnew.chatRoomId) (hnone r hr hv)
    · rw [List.mem_singleton.mp hr] at hv hroom
      obtain rfl : u = v := Option.some.inj (hnew.userId.symm.trans hv)
      exact absurd (hroom.symm.trans hnew.chatRoomId) (hnone r' hr' hv')
    · rw [List.mem_singleton.mp hr, List.mem_singleton.mp hr']

theorem createSystem_step {c c' : Config ι Recents Write} {a : Action ι}
    (hI : Holding (Pending call) c) (h : OneRecentEach c.store)
    (hs : (createSystem call).step c a = some c') :
    Holding (Pending call) c' ∧ (OneRecentEach c'.store ↔ NoneSinceQuery call c a) := by
  rcases System.step_cases hs with ⟨i, rfl, -, rfl⟩ | ⟨i, snapshot, w, todo, rfl, hi, rfl⟩
  · refine ⟨holding_update hI (pending_callback call i c.store) fun _ _ _ _ hp => hp, ?_⟩
    exact ⟨fun _ => trivial, fun _ => h⟩
  · obtain ⟨users, hnodup, hcreates, howners⟩ := hI i snapshot (w :: todo) hi
    obtain ⟨u, rest, hw, hcreatesRest, rfl⟩ := List.forall₂_cons_right_iff.mp hcreates
    have hrest : Pending call i snapshot todo :=
      ⟨rest, (List.nodup_cons.mp hnodup).2, hcreatesRest,
        fun v hv => howners v (List.mem_cons_of_mem _ hv)⟩
    refine ⟨holding_update hI hrest fun _ _ _ _ hp => hp, ?_⟩
    have howner := howners u List.mem_cons_self
    cases w with
    | updateData recentId values => exact hw.elim
    | delete recentId => exact hw.elim
    | setData recent self =>
      show OneRecentEach (c.store.apply (.setData recent self)) ↔ _
      rw [oneRecentEach_setData hw h]
      constructor
      · intro hnone snapshot' w' todo' v hstage hv r hr huser hroom
        rw [hi] at hstage
        obtain ⟨rfl, rfl⟩ : snapshot = snapshot' ∧ Write.setData recent self = w' := by
          simp only [Stage.writing.injEq, List.cons.injEq] at hstage
          exact ⟨hstage.1, hstage.2.1⟩
        obtain rfl : u = v := Option.some.inj ((hw 0).userId.symm.trans (hv 0).userId)
        exact absurd hroom (hnone r hr huser)
      · -- a Recent from before the query would have taken the user off the call's list
        intro hcond r hr huser hroom
        exact howner r (hcond snapshot _ todo u hi hw r hr huser hroom) huser hroom

/-- However the queries and writes of any calls interleave: no user ever has two
Recents of one room exactly when no call creates a Recent for a user who has got
one since the call's query. -/
theorem createRecent_unique_iff (call : ι → CreateCall) (s : Recents) (hs : OneRecentEach s)
    (actions : List (Action ι)) :
    Runs.Always (createSystem call).step (fun c => OneRecentEach c.store) (init s) actions ↔
      Runs.Guarded (createSystem call).step (NoneSinceQuery call) (init s) actions := by
  apply Runs.always_iff_guarded (I := Holding (Pending call))
  · intro c a c' hI h hstep
    exact createSystem_step call hI h hstep
  · exact holding_init _ s
  · exact hs

end

def ann : FUser := FUser.make "ann" none 0 0 "" "Ann" "" "" "" "" "" ""

def bea : FUser := FUser.make "bea" none 0 0 "" "Bea" "" "" "" "" "" ""

/-- Ann and Bea start a chat with each other. -/
def bothStart : Bool → CreateCall
  | true => .ofStartPrivateChat ann bea "20190204120000" (by decide)
  | false => .ofStartPrivateChat bea ann "20190204120000" (by decide)

/-- Both calls have ended: Ann's has created both Recents, and Bea's finds them. -/
theorem createRecent_unique_one_after_the_other :
    (∃ c, Runs.exec (createSystem bothStart).step (init Recents.empty)
        [.query true, .write true, .write true, .query false] = some c ∧ System.Finished c ∧
      c.store.all.map Recent.userId = [some "ann", some "bea"]) ∧
    Runs.Always (createSystem bothStart).step (fun c => OneRecentEach c.store) (init Recents.empty)
      [.query true, .write true, .write true, .query false] := by
  refine ⟨⟨_, rfl, ?_, rfl⟩, (createRecent_unique_iff bothStart Recents.empty
    (fun _ hr => absurd hr List.not_mem_nil)
    [.query true, .write true, .write true, .query false]).mpr ?_⟩
  · intro i
    cases i <;> exact ⟨_, rfl⟩
  refine Runs.guarded_cons_of_step rfl trivial ?_
  refine Runs.guarded_cons_of_step rfl ?_ ?_
  · intro snapshot w todo u hstage _ r hr
    exact absurd hr List.not_mem_nil
  refine Runs.guarded_cons_of_step rfl ?_ ?_
  · -- Ann has got a Recent, Bea has none
    intro snapshot w todo u hstage hcreates r hr huser _
    cases hstage
    obtain rfl := List.mem_singleton.mp hr
    exact absurd ((hcreates 1).userId.trans huser.symm) (by decide)
  exact Runs.guarded_cons_of_step rfl trivial Runs.guarded_nil

/-- Both devices query the room before either creates a Recent: both create one for
Ann. -/
theorem createRecent_unique_fails_both_sides :
    OneRecentEach Recents.empty ∧
    ¬ Runs.Always (createSystem bothStart).step (fun c => OneRecentEach c.store)
      (init Recents.empty) [.query true, .query false, .write true, .write false, .write false] := by
  refine ⟨fun _ hr => absurd hr List.not_mem_nil, fun h => ?_⟩
  have hone := h.last rfl
  have heq := hone _ List.mem_cons_self _
    (List.mem_cons_of_mem _ (List.mem_cons_of_mem _ List.mem_cons_self)) "ann" rfl rfl rfl
  exact absurd (congrArg Recent.recentId heq) (by decide)

end LiChat
