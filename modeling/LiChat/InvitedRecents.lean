import LiChat.GroupInvitations

/-!
# The Recents of a group after an invitation

`updateGroup` starts two operations on the Recents of the group.  One creates a Recent
for every new member, the other gives both member lists to the Recents that it finds;
either may query first, and their writes interleave.
-/

namespace LiChat
open QueryWrite Toggle

namespace InviteUserTableViewController

def select (vc : InviteUserTableViewController) (taps : List Uid) : InviteUserTableViewController :=
  taps.foldl didSelectRow vc

/-- The two operations on the Recents that `updateGroup` starts. -/
def operations (vc : InviteUserTableViewController) (currentId : Uid) (date : String) :
    Bool → Operation
  | true => .createRecent currentId date
      (createRecentForNewMembers vc.group.groupId vc.group.name vc.tempMembersToPush vc.group.avatar)
  | false => .updateExistingRecentWithNewValues vc.group.groupId
      { members := some vc.tempMembers, membersToPush := some vc.tempMembersToPush }

abbrev inviteSystem (vc : InviteUserTableViewController) (currentId : Uid) (date : String) :
    System Bool Recents Write := recentSystem (vc.operations currentId date)

theorem select_group (vc : InviteUserTableViewController) (taps : List Uid) :
    (vc.select taps).group = vc.group := by
  induction taps generalizing vc with
  | nil => rfl
  | cons u taps ih =>
    show ((vc.didSelectRow u).select taps).group = _
    rw [ih, didSelectRow_group]

theorem select_currentMemberIds (vc : InviteUserTableViewController) (taps : List Uid) :
    (vc.select taps).currentMemberIds = vc.currentMemberIds := by
  induction taps generalizing vc with
  | nil => rfl
  | cons u taps ih =>
    show ((vc.didSelectRow u).select taps).currentMemberIds = _
    rw [ih, didSelectRow_currentMemberIds]

theorem select_newMemberIds (vc : InviteUserTableViewController) (taps : List Uid) :
    (vc.select taps).newMemberIds =
      toggleAll (taps.filter fun u => u ∉ vc.currentMemberIds) vc.newMemberIds := by
  induction taps generalizing vc with
  | nil => rfl
  | cons u taps ih =>
    show ((vc.didSelectRow u).select taps).newMemberIds = _
    rw [ih, didSelectRow_currentMemberIds]
    by_cases hu : u ∈ vc.currentMemberIds
    · rw [List.filter_cons_of_neg (by simpa using hu), didSelectRow, if_pos (by simpa using hu)]
    · rw [List.filter_cons_of_pos (by simpa using hu), didSelectRow, if_neg (by simpa using hu)]
      rfl

/-- On a fresh screen the selected users are the non-members that have been tapped an
odd number of times. -/
theorem mem_select_newMemberIds (group : Group) (taps : List Uid) (u : Uid) :
    u ∈ ((viewDidLoad group).select taps).newMemberIds ↔ u ∉ group.members ∧ Odd (taps.count u) := by
  have hcurrent : (viewDidLoad group).currentMemberIds = group.members := rfl
  have hnew : (viewDidLoad group).newMemberIds = [] := rfl
  rw [select_newMemberIds, hcurrent, hnew, mem_toggleAll _ List.nodup_nil, ← Nat.not_even_iff_odd]
  by_cases hu : u ∈ group.members
  · have hnot : u ∉ taps.filter fun u => u ∉ group.members := by simp [hu]
    rw [List.count_eq_zero.mpr hnot]
    simp [hu]
  · rw [List.count_filter (by simpa using hu)]
    simp [hu]

theorem nodup_tempMembers {group : Group} (hnodup : group.members.Nodup) (taps : List Uid) :
    ((viewDidLoad group).select taps).tempMembers.Nodup := by
  have hnew : ((viewDidLoad group).select taps).newMemberIds.Nodup := by
    rw [select_newMemberIds]
    exact nodup_toggleAll _ List.nodup_nil
  rw [tempMembers, select_currentMemberIds, List.nodup_append]
  refine ⟨hnodup, hnew, fun u hu v hv huv => ?_⟩
  subst huv
  exact ((mem_select_newMemberIds group taps u).mp hv).1 hu

section Interleaving
variable (vc : InviteUserTableViewController)

def Carries (r : Recent) : Prop :=
  r.members = vc.tempMembers ∧ r.membersToPush = vc.tempMembersToPush

/-- The arguments with which new members get their Recents, and the update of the
others. -/
abbrev creation : CreateRecent :=
  createRecentForNewMembers vc.group.groupId vc.group.name vc.tempMembersToPush vc.group.avatar

abbrev newValues : RecentValues :=
  { members := some vc.tempMembers, membersToPush := some vc.tempMembersToPush }

/-- At most one Recent of the room for each user. -/
def OneInRoom (room : String) (s : Recents) : Prop :=
  ∀ r ∈ s.inRoom room, ∀ r' ∈ s.inRoom room, ∀ u, r.userId = some u → r'.userId = some u → r = r'

/-- Once the members without a Recent are known, each member either waits for one or
owns it. -/
def Creating (s : Recents) : Stage Recents Write → Prop
  | .waiting => True
  | .writing _ todo => ∃ users : List Uid,
      users.Nodup ∧ List.Forall₂ (fun u w => Write.Creates vc.creation u w) users todo ∧
      (∀ u ∈ users, ∀ r ∈ s.inRoom vc.group.groupId, r.userId ≠ some u) ∧
      ∀ u ∈ vc.tempMembersToPush, u ∈ users ∨ ∃ r ∈ s.inRoom vc.group.groupId, r.userId = some u

/-- Once the existing Recents are known, each Recent either carries the new lists or
waits for them. -/
def Updating (s : Recents) : Stage Recents Write → Prop
  | .waiting => True
  | .writing _ todo =>
      (∀ w ∈ todo, ∃ recentId, w = .updateData recentId vc.newValues) ∧
      ∀ r ∈ s.inRoom vc.group.groupId,
        vc.Carries r ∨ Write.updateData r.recentId vc.newValues ∈ todo

structure Inviting (c : Config Bool Recents Write) : Prop where
  one : OneInRoom vc.group.groupId c.store
  creating : vc.Creating c.store (c.stage true)
  updating : vc.Updating c.store (c.stage false)

variable {vc}

theorem creating_query (currentId : Uid) (date : String) (snapshot s : Recents)
    (hnodup : vc.tempMembersToPush.Nodup) :
    vc.Creating s (.writing snapshot ((vc.inviteSystem currentId date).callback true s)) := by
  obtain ⟨hrest, hmem⟩ := mem_removeOwners hnodup (s.inRoom vc.group.groupId)
  obtain ⟨users, -, hcomplete, hcreates⟩ := createRecent_creates
    (Operation.callback_createRecent currentId date (show vc.creation.Complete from rfl)
      (s.inRoom vc.group.groupId))
  obtain rfl := hcomplete rfl
  refine ⟨_, hrest, hcreates, fun u hu r hr => ((hmem u).mp hu).2 r hr, ?_⟩
  intro u hu
  by_cases howns : ∃ r ∈ s.inRoom vc.group.groupId, r.userId = some u
  · exact Or.inr howns
  · exact Or.inl ((hmem u).mpr ⟨hu, fun r hr huser => howns ⟨r, hr, huser⟩⟩)

theorem updating_query (currentId : Uid) (date : String) (snapshot s : Recents) :
    vc.Updating s (.writing snapshot ((vc.inviteSystem currentId date).callback false s)) := by
  constructor
  · intro w hw
    obtain ⟨r, -, rfl⟩ := List.mem_map.mp hw
    exact ⟨r.recentId, rfl⟩
  · intro r hr
    exact Or.inr (List.mem_map_of_mem hr)

theorem inviting_write_create {s snapshot : Recents} {w : Write} {todo : List Write}
    {stage : Stage Recents Write} (hlists : vc.tempMembersToPush = vc.tempMembers)
    (hone : OneInRoom vc.group.groupId s) (hcreating : vc.Creating s (.writing snapshot (w :: todo)))
    (hupdating : vc.Updating s stage) :
    OneInRoom vc.group.groupId (s.apply w) ∧ vc.Creating (s.apply w) (.writing snapshot todo) ∧
      vc.Updating (s.apply w) stage := by
  obtain ⟨users, hnodup, hcreates, hnone, hmembers⟩ := hcreating
  obtain ⟨u, rest, hw, hrest, rfl⟩ := List.forall₂_cons_right_iff.mp hcreates
  obtain ⟨hu, hnodup⟩ := List.nodup_cons.mp hnodup
  cases w with
  | updateData recentId values => exact hw.elim
  | delete recentId => exact hw.elim
  | setData recent self =>
    have hnew := hw s.next
    have hmem : ∀ r, r ∈ (s.apply (.setData recent self)).inRoom vc.group.groupId ↔
        r ∈ s.inRoom vc.group.groupId ∨ r = recent s.next :=
      fun r => Recents.mem_inRoom_setData hnew.chatRoomId
    refine ⟨?_, ⟨rest, hnodup, hrest, ?_, ?_⟩, ?_⟩
    · -- the new Recent is the only one of its owner
      intro r hr r' hr' v hv hv'
      rcases (hmem r).mp hr with hold | rfl <;> rcases (hmem r').mp hr' with hold' | rfl
      · exact hone r hold r' hold' v hv hv'
      · obtain rfl : u = v := Option.some.inj (hnew.userId.symm.trans hv')
        exact absurd hv (hnone u List.mem_cons_self r hold)
      · obtain rfl : u = v := Option.some.inj (hnew.userId.symm.trans hv)
        exact absurd hv' (hnone u List.mem_cons_self r' hold')
      · rfl
    · intro v hv r hr
      rcases (hmem r).mp hr with hold | rfl
      · exact hnone v (List.mem_cons_of_mem _ hv) r hold
      · rw [hnew.userId]
        exact fun h => hu (Option.some.inj h ▸ hv)
    · intro v hv
      rcases hmembers v hv with hwaits | ⟨r, hr, huser⟩
      · rcases List.mem_cons.mp hwaits with rfl | hwaits
        · exact Or.inr ⟨_, (hmem _).mpr (Or.inr rfl), hnew.userId⟩
        · exact Or.inl hwaits
      · exact Or.inr ⟨r, (hmem r).mpr (Or.inl hr), huser⟩
    · cases stage with
      | waiting => trivial
      | writing snapshot' todo' =>
        refine ⟨hupdating.1, fun r hr => ?_⟩
        rcases (hmem r).mp hr with hold | rfl
        · exact hupdating.2 r hold
        · exact Or.inl ⟨hnew.members.trans hlists, hnew.membersToPush⟩

theorem inviting_write_update {s snapshot : Recents} {w : Write} {todo : List Write}
    {stage : Stage Recents Write} (hone : OneInRoom vc.group.groupId s)
    (hcreating : vc.Creating s stage) (hupdating : vc.Updating s (.writing snapshot (w :: todo))) :
    OneInRoom vc.group.groupId (s.apply w) ∧ vc.Creating (s.apply w) stage ∧
      vc.Updating (s.apply w) (.writing snapshot todo) := by
  obtain ⟨hwrites, hcarries⟩ := hupdating
  obtain ⟨recentId, rfl⟩ := hwrites w List.mem_cons_self
  -- an update changes no owner
  have howner : ∀ d : Recent,
      (if d.recentId = recentId then d.updateData vc.newValues else d).userId = d.userId := by
    intro d
    split_ifs <;> rfl
  refine ⟨?_, ?_, fun w hw => hwrites w (List.mem_cons_of_mem _ hw), fun r hr => ?_⟩
  · intro r hr r' hr' v hv hv'
    obtain ⟨d, hd, rfl⟩ := Recents.mem_inRoom_updateData.mp hr
    obtain ⟨d', hd', rfl⟩ := Recents.mem_inRoom_updateData.mp hr'
    rw [howner] at hv hv'
    rw [hone d hd d' hd' v hv hv']
  · cases stage with
    | waiting => trivial
    | writing snapshot' todo' =>
      obtain ⟨users, hnodup, hcreates, hnone, hmembers⟩ := hcreating
      refine ⟨users, hnodup, hcreates, fun u hu r hr => ?_, fun u hu => ?_⟩
      · obtain ⟨d, hd, rfl⟩ := Recents.mem_inRoom_updateData.mp hr
        rw [howner]
        exact hnone u hu d hd
      · refine (hmembers u hu).imp_right ?_
        rintro ⟨d, hd, huser⟩
        exact ⟨_, Recents.mem_inRoom_updateData.mpr ⟨d, hd, rfl⟩, (howner d).trans huser⟩
  · obtain ⟨d, hd, rfl⟩ := Recents.mem_inRoom_updateData.mp hr
    by_cases hid : d.recentId = recentId
    · rw [if_pos hid]
      exact Or.inl ⟨rfl, rfl⟩
    · rw [if_neg hid]
      refine (hcarries d hd).imp_right fun htodo => ?_
      rcases List.mem_cons.mp htodo with heq | htodo
      · exact absurd (Write.updateData.inj heq).1 hid
      · exact htodo

theorem inviting_step {currentId : Uid} {date : String} {c c' : Config Bool Recents Write}
    {a : Action Bool} (hlists : vc.tempMembersToPush = vc.tempMembers)
    (hnodup : vc.tempMembersToPush.Nodup) (hI : vc.Inviting c)
    (h : (vc.inviteSystem currentId date).step c a = some c') : vc.Inviting c' := by
  rcases System.step_cases h with ⟨i, rfl, -, rfl⟩ | ⟨i, snapshot, w, todo, rfl, hi, rfl⟩
  · cases i with
    | true => exact ⟨hI.one, creating_query currentId date c.store c.store hnodup, hI.updating⟩
    | false => exact ⟨hI.one, hI.creating, updating_query currentId date c.store c.store⟩
  · cases i with
    | true =>
      obtain ⟨hone, hcreating, hupdating⟩ :=
        inviting_write_create hlists hI.one (hi ▸ hI.creating) hI.updating
      exact ⟨hone, hcreating, hupdating⟩
    | false =>
      obtain ⟨hone, hcreating, hupdating⟩ :=
        inviting_write_update hI.one hI.creating (hi ▸ hI.updating)
      exact ⟨hone, hcreating, hupdating⟩

theorem inviting_reached {currentId : Uid} {date : String} {s : Recents} {schedule : List (Action Bool)}
    {c : Config Bool Recents Write} (hlists : vc.tempMembersToPush = vc.tempMembers)
    (hnodup : vc.tempMembersToPush.Nodup) (hone : OneInRoom vc.group.groupId s)
    (hrun : Runs.exec (vc.inviteSystem currentId date).step (init s) schedule = some c) :
    vc.Inviting c :=
  (Runs.always_of_step (fun _ _ _ hI hstep => inviting_step hlists hnodup hI hstep)
    (⟨hone, trivial, trivial⟩ : vc.Inviting (init s)) schedule).last hrun

end Interleaving

end InviteUserTableViewController

namespace GroupWorld
open InviteUserTableViewController

variable {κ : Type} [DecidableEq κ]

theorem exec_taps {w : GroupWorld κ} {screen : κ} {vc : InviteUserTableViewController}
    (hvc : w.screens screen = some vc) (taps : List Uid) :
    Runs.exec step w (taps.map (.didSelectRow screen)) =
      some { w with screens := Function.update w.screens screen (some (vc.select taps)) } := by
  induction taps generalizing w vc with
  | nil =>
    have hsame : Function.update w.screens screen (some vc) = w.screens := by
      rw [← hvc, Function.update_eq_self]
    show some w = some { w with screens := Function.update w.screens screen (some vc) }
    rw [hsame]
  | cons u taps ih =>
    have hstep : w.step (.didSelectRow screen u) =
        some { w with screens := Function.update w.screens screen (some (vc.didSelectRow u)) } := by
      simp only [step, hvc, Option.bind_eq_bind, Option.bind_some]
    rw [List.map_cons, Runs.exec_cons, hstep, Option.bind_some, ih (Function.update_self ..)]
    simp only [Function.update_idem]
    rfl

theorem exec_invitation {w w' : GroupWorld κ} {screen : κ} {vc : InviteUserTableViewController}
    {taps : List Uid} {stored : Group} (hvc : w.screens screen = some vc)
    (hstored : w.groups vc.group.groupId = some stored)
    (h : Runs.exec step w (taps.map (.didSelectRow screen) ++
      [.doneButtonPressed screen, .updateData w.inFlight.length]) = some w') :
    w'.groups vc.group.groupId = some { stored with
      members := (vc.select taps).tempMembers
      membersToPush := (vc.select taps).tempMembersToPush } := by
  rw [Runs.exec_append, exec_taps hvc, Option.bind_some, Runs.exec_cons] at h
  obtain ⟨w₁, hdone, h⟩ := Option.bind_eq_some_iff.mp h
  simp only [step, Function.update_self, Option.bind_eq_bind, Option.bind_some,
    Option.ite_none_right_eq_some, Option.some.injEq] at hdone
  obtain ⟨-, rfl⟩ := hdone
  obtain ⟨w₂, hupdate, h⟩ := Option.bind_eq_some_iff.mp h
  obtain rfl := Option.some.inj h
  obtain ⟨sent, stored', hsent, hstored', rfl⟩ := updateData_cases hupdate
  obtain rfl : vc.select taps = sent := by simpa using hsent
  rw [select_group] at hstored' ⊢
  obtain rfl : stored = stored' := Option.some.inj (hstored.symm.trans hstored')
  exact Function.update_self ..

/-- A fresh invitation screen holds the stored group, users are tapped, and Done is
pressed; then, whichever of the two operations on the Recents queries first and however
their writes interleave, the group gets its old members and those non-members that have
been tapped an odd number of times, all of them own exactly one Recent of the group, and
all Recents of the group carry these members in both lists. -/
theorem invitation_consistent (past : List (GroupAction κ)) (w w' : GroupWorld κ) (screen : κ)
    (group : Group) (taps : List Uid) (currentId : Uid) (date : String) (s : Recents)
    (schedule : List (Action Bool)) (c : Config Bool Recents Write)
    (hpast : Runs.exec step init past = some w)
    (hscreen : w.screens screen = some (viewDidLoad group))
    (hcurrent : w.groups group.groupId = some group) (hnodup : group.members.Nodup)
    (hone : OneInRoom group.groupId s)
    (hinvite : Runs.exec step w (taps.map (.didSelectRow screen) ++
      [.doneButtonPressed screen, .updateData w.inFlight.length]) = some w')
    (hrun : Runs.exec (((viewDidLoad group).select taps).inviteSystem currentId date).step
      (QueryWrite.init s) schedule = some c) (hfinished : System.Finished c) :
    ∃ new : List Uid,
      w'.groups group.groupId = some { group with
        members := group.members ++ new
        membersToPush := group.members ++ new } ∧
      (∀ u, u ∈ new ↔ u ∉ group.members ∧ Odd (taps.count u)) ∧
      (group.members ++ new).Nodup ∧
      (∀ u ∈ group.members ++ new, ∃! r, r ∈ c.store.inRoom group.groupId ∧ r.userId = some u) ∧
      ∀ r ∈ c.store.inRoom group.groupId,
        r.members = group.members ++ new ∧ r.membersToPush = group.members ++ new := by
  set vc := (viewDidLoad group).select taps with hvc
  have hgroup : vc.group = group := select_group _ taps
  have hmembers : vc.tempMembers = group.members ++ vc.newMemberIds := by
    rw [tempMembers, select_currentMemberIds]
    rfl
  -- no reachable group has a member that is not pushed
  have hpush : group.membersToPush = group.members :=
    (pushIsMembers_reached hpast).groups group.groupId group hcurrent
  have hlists : vc.tempMembersToPush = vc.tempMembers := by
    rw [tempMembersToPush, hgroup, hpush, hmembers]
  have hNodup : vc.tempMembers.Nodup := nodup_tempMembers hnodup taps
  have hI : vc.Inviting c := inviting_reached hlists (hlists ▸ hNodup) (by rwa [hgroup]) hrun
  obtain ⟨snapshot, hcreated⟩ := hfinished true
  obtain ⟨snapshot', hupdated⟩ := hfinished false
  obtain ⟨users, -, hcreates, -, howners⟩ := (hcreated ▸ hI.creating :)
  obtain ⟨-, hcarries⟩ := (hupdated ▸ hI.updating :)
  obtain rfl := List.forall₂_nil_right_iff.mp hcreates
  simp only [hgroup, List.not_mem_nil, false_or, or_false] at howners hcarries
  refine ⟨vc.newMemberIds, ?_, mem_select_newMemberIds group taps, hmembers ▸ hNodup, ?_, ?_⟩
  · have hstored := exec_invitation hscreen hcurrent hinvite
    rw [← hvc, hlists, hmembers] at hstored
    exact hstored
  · intro u hu
    obtain ⟨r, hr, huser⟩ := howners u (by rwa [hlists, hmembers])
    refine ⟨r, ⟨hr, huser⟩, ?_⟩
    rintro r' ⟨hr', huser'⟩
    have hone' : OneInRoom group.groupId c.store := hgroup ▸ hI.one
    exact hone' r' hr' r hr u huser' huser
  · intro r hr
    obtain ⟨hrmembers, hrpush⟩ := hcarries r hr
    exact ⟨hrmembers.trans hmembers, hrpush.trans (hlists.trans hmembers)⟩

def trip : Group := Group.make "trip" "Trip" "ann" ["bea", "ann"] ""

def tripRecents : Recents :=
  (Operation.createRecent "ann" "20190204120000" (startGroupChat trip)).run Recents.empty

/-- Carl is invited, Dora is selected and dropped again, and the operation that updates
the Recents queries first and writes last. -/
theorem invitation_consistent_trip :
    ∃ (w w' : GroupWorld Unit) (c : Config Bool Recents Write) (new : List Uid),
      Runs.exec step init [.saveGroup "trip" "Trip" "ann" ["bea"] "", .getCurrentGroup () "trip",
        .inviteUsers () ()] = some w ∧
      w'.groups "trip" = some { trip with
        members := trip.members ++ new
        membersToPush := trip.members ++ new } ∧
      (∀ u, u ∈ new ↔ u ∉ trip.members ∧ Odd (["dora", "carl", "bea", "dora"].count u)) ∧
      (trip.members ++ new).Nodup ∧
      (∀ u ∈ trip.members ++ new, ∃! r, r ∈ c.store.inRoom "trip" ∧ r.userId = some u) ∧
      ∀ r ∈ c.store.inRoom "trip",
        r.members = trip.members ++ new ∧ r.membersToPush = trip.members ++ new := by
  obtain ⟨new, h⟩ := invitation_consistent
    [.saveGroup "trip" "Trip" "ann" ["bea"] "", .getCurrentGroup () "trip", .inviteUsers () ()]
    _ _ () trip ["dora", "carl", "bea", "dora"] "ann" "20190204120100" tripRecents
    [.query false, .query true, .write true, .write false, .write false] _ rfl rfl rfl (by decide)
    (by unfold OneInRoom; decide) rfl rfl (fun i => by cases i <;> exact ⟨_, rfl⟩)
  exact ⟨_, _, _, new, rfl, h⟩

end GroupWorld

end LiChat
