import LiChat.General.Runs
import LiChat.RecentOperations
import LiChat.UserSections

/-!
# Creating a group

Members are selected in the list of contacts, which keeps their ids and their profiles in
two arrays.  Next copies both arrays to a screen that can drop members and creates the
group.
-/

namespace LiChat

/-- The contacts in group mode; `searchText` is the text of an active search and
`isEnabled` belongs to Next. -/
structure ContactsTableViewController where
  users : List FUser
  matchedUsers : List FUser
  filteredMatchedUsers : List FUser
  sections : UserSections
  searchText : Option String
  memberIdsOfGroupChat : List Uid
  membersOfGroupChat : List FUser
  isEnabled : Bool

namespace ContactsTableViewController

def initial : ContactsTableViewController := ⟨[], [], [], UserSections.empty, none, [], [], false⟩

/-- What the screen uses of the address book and of string functions: whether a phone
number is that of a contact, `pingying`, and whether a name contains a text. -/
structure Device where
  isContact : String → Bool
  firstCharString : String → String
  contains : String → String → Bool

variable (device : Device)

/-- Here a title that appears again is not listed again. -/
def splitDataInToSection (vc : ContactsTableViewController) : ContactsTableViewController :=
  { vc with
    sections := UserSections.split (fun titles title => if title ∈ titles then titles
      else titles ++ [title]) device.firstCharString "" vc.sections vc.matchedUsers }

def compareUsers (vc : ContactsTableViewController) : ContactsTableViewController :=
  splitDataInToSection device
    { vc with
      matchedUsers := vc.matchedUsers ++
        vc.users.filter fun user => user.phoneNumber ≠ "" ∧ device.isContact user.phoneNumber }

/-- The callback of `loadUsers`. -/
def loadUsers (currentId : Uid) (snapshot : List FUser) (vc : ContactsTableViewController) :
    ContactsTableViewController :=
  compareUsers device <|
    if snapshot.isEmpty then vc
    else { vc with
      matchedUsers := []
      users := snapshot.filter fun fUser => fUser.objectId ≠ currentId }

def updateSearchResults (searchText : Option String) (vc : ContactsTableViewController) :
    ContactsTableViewController :=
  { vc with
    searchText := searchText
    filteredMatchedUsers :=
      vc.matchedUsers.filter fun user => device.contains user.firstname (searchText.getD "") }

def userToChat (vc : ContactsTableViewController) (sectionIndex row : ℕ) : Option FUser :=
  if vc.searchText.isSome ∧ vc.searchText ≠ some "" then do
    let _ ← vc.sections.sectionTitleList[sectionIndex]?
    vc.filteredMatchedUsers[row]?
  else vc.sections.user sectionIndex row

/-- Adds the user to both arrays or removes both entries. -/
def select (userToChat : FUser) (vc : ContactsTableViewController) : ContactsTableViewController :=
  let objectIndex := vc.memberIdsOfGroupChat.idxOf userToChat.objectId
  let vc :=
    if vc.memberIdsOfGroupChat.contains userToChat.objectId then
      { vc with
        memberIdsOfGroupChat := vc.memberIdsOfGroupChat.eraseIdx objectIndex
        membersOfGroupChat := vc.membersOfGroupChat.eraseIdx objectIndex }
    else
      { vc with
        memberIdsOfGroupChat := vc.memberIdsOfGroupChat ++ [userToChat.objectId]
        membersOfGroupChat := vc.membersOfGroupChat ++ [userToChat] }
  { vc with isEnabled := 0 < vc.membersOfGroupChat.length }

theorem select_lists (vc : ContactsTableViewController) (userToChat : FUser) :
    (vc.select userToChat).users = vc.users ∧
      (vc.select userToChat).matchedUsers = vc.matchedUsers ∧
      (vc.select userToChat).filteredMatchedUsers = vc.filteredMatchedUsers ∧
      (vc.select userToChat).sections = vc.sections := by
  unfold select
  split_ifs
  · exact ⟨rfl, rfl, rfl, rfl⟩
  · exact ⟨rfl, rfl, rfl, rfl⟩

end ContactsTableViewController

structure NewGroupViewController where
  memberIds : List Uid
  allMemebers : List FUser
  deriving DecidableEq, Repr

namespace NewGroupViewController

/-- `isEnabled` of Create, set by `updateParticipantLabel` whenever the members change. -/
def isEnabled (vc : NewGroupViewController) : Bool := 0 < vc.allMemebers.length

/-- The screen after Create and the Group document that is saved; without a subject an
error is shown. -/
def createButtonPressed (vc : NewGroupViewController) (currentId : Uid)
    (subject groupId avatar : String) : NewGroupViewController × Option Group :=
  if subject ≠ "" then
    let memberIds := vc.memberIds ++ [currentId]
    ({ vc with memberIds := memberIds }, some (Group.make groupId subject currentId memberIds avatar))
  else (vc, none)

/-- `none` is the trap on a row out of range. -/
def didClickDeleteButton (vc : NewGroupViewController) (row : ℕ) : Option NewGroupViewController :=
  if row < vc.allMemebers.length ∧ row < vc.memberIds.length then
    some ⟨vc.memberIds.eraseIdx row, vc.allMemebers.eraseIdx row⟩
  else none

end NewGroupViewController

/-- The contacts, the screen that Next has opened, whether a chat covers it, how often
Create has been pressed on it with a subject, and all Group documents that were saved. -/
structure GroupCreation where
  contacts : ContactsTableViewController
  newGroup : Option NewGroupViewController
  isInChat : Bool
  presses : ℕ
  groups : List Group

inductive GroupCreationAction where
  | loadUsers (snapshot : List FUser)
  | updateSearchResults (searchText : Option String)
  | didSelectRow (sectionIndex row : ℕ)
  | nextButtonPressed
  | didClickDeleteButton (row : ℕ)
  | createButtonPressed (subject groupId avatar : String)
  | backToNewGroup
  | backToContacts

namespace GroupCreation
open ContactsTableViewController

def init : GroupCreation := ⟨initial, none, false, 0, []⟩

variable (device : Device) (currentId : Uid)

/-- Only the screen on top of the navigation stack can be used; a query may return at any
time. -/
def step (w : GroupCreation) : GroupCreationAction → Option GroupCreation
  | .loadUsers snapshot =>
    some { w with contacts := w.contacts.loadUsers device currentId snapshot }
  | .updateSearchResults searchText =>
    if w.newGroup = none then
      some { w with contacts := w.contacts.updateSearchResults device searchText }
    else none
  | .didSelectRow sectionIndex row => do
    let user ← w.contacts.userToChat sectionIndex row
    if w.newGroup = none then some { w with contacts := w.contacts.select user } else none
  | .nextButtonPressed =>
    if w.newGroup = none ∧ w.contacts.isEnabled then
      some { w with
        newGroup := some ⟨w.contacts.memberIdsOfGroupChat, w.contacts.membersOfGroupChat⟩
        presses := 0 }
    else none
  | .didClickDeleteButton row => do
    let vc ← w.newGroup
    let vc' ← vc.didClickDeleteButton row
    if w.isInChat then none else some { w with newGroup := some vc' }
  | .createButtonPressed subject groupId avatar => do
    let vc ← w.newGroup
    if w.isInChat ∨ ¬ vc.isEnabled then none
    else
      match vc.createButtonPressed currentId subject groupId avatar with
      | (_, none) => some w
      | (vc', some group) =>
        some { w with
          newGroup := some vc'
          isInChat := true
          presses := w.presses + 1
          groups := w.groups ++ [group] }
  | .backToNewGroup => if w.isInChat then some { w with isInChat := false } else none
  | .backToContacts =>
    if w.isInChat ∨ w.newGroup = none then none else some { w with newGroup := none }

/-- The group has the listed users and the current user as members, each once, and
starting its chat alone gives each of them exactly one Recent. -/
structure WellFormed (allMemebers : List FUser) (group : Group) : Prop where
  nodup : group.members.Nodup
  count : group.members.count currentId = 1
  mem : ∀ u, u ∈ group.members ↔ u = currentId ∨ u ∈ allMemebers.map FUser.objectId
  recents : ∀ (date : String) (s : Recents), s.inRoom group.groupId = [] → ∀ u ∈ group.members,
    ∃! r, r ∈ ((Operation.createRecent currentId date (startGroupChat group)).run s).inRoom
      group.groupId ∧ r.userId = some u

def CreatesWellFormed (w : GroupCreation) : GroupCreationAction → Prop
  | .createButtonPressed subject groupId avatar => subject ≠ "" → ∀ vc w', w.newGroup = some vc →
      step device currentId w (.createButtonPressed subject groupId avatar) = some w' →
      ∃ group, w'.groups = w.groups ++ [group] ∧ WellFormed currentId vc.allMemebers group
  | _ => True

/-- Create with a subject is pressed for the first time on its screen. -/
def FirstPress (w : GroupCreation) : GroupCreationAction → Prop
  | .createButtonPressed subject _ _ => subject ≠ "" → w.presses = 0
  | _ => True

instance (w : GroupCreation) : (a : GroupCreationAction) → Decidable (w.FirstPress a)
  | .createButtonPressed subject _ _ => inferInstanceAs (Decidable (subject ≠ "" → w.presses = 0))
  | .loadUsers _ | .updateSearchResults _ | .didSelectRow _ _ | .nextButtonPressed
  | .didClickDeleteButton _ | .backToNewGroup | .backToContacts => isTrue trivial

/-- Two parallel arrays without duplicates and without the current user; the array of ids
may go on with `presses` entries of the current user. -/
structure Selection (presses : ℕ) (memberIds : List Uid) (members : List FUser) : Prop where
  parallel : memberIds = members.map FUser.objectId ++ List.replicate presses currentId
  nodup : (members.map FUser.objectId).Nodup
  others : ∀ user ∈ members, user.objectId ≠ currentId

/-- The contacts list nobody but others, and both screens hold selections of them. -/
structure Selecting (w : GroupCreation) : Prop where
  users : ∀ user ∈ w.contacts.users, user.objectId ≠ currentId
  matched : ∀ user ∈ w.contacts.matchedUsers, user.objectId ≠ currentId
  filtered : ∀ user ∈ w.contacts.filteredMatchedUsers, user.objectId ≠ currentId
  listed : ∀ user, w.contacts.sections.Lists user → user.objectId ≠ currentId
  contacts : Selection currentId 0 w.contacts.memberIdsOfGroupChat w.contacts.membersOfGroupChat
  newGroup : ∀ vc, w.newGroup = some vc → Selection currentId w.presses vc.memberIds vc.allMemebers

variable {device} {currentId}

theorem selecting_init : Selecting currentId init where
  users := by rintro _ ⟨⟩
  matched := by rintro _ ⟨⟩
  filtered := by rintro _ ⟨⟩
  listed := by rintro _ ⟨_, _, ⟨⟩, _⟩
  contacts := ⟨rfl, List.nodup_nil, by rintro _ ⟨⟩⟩
  newGroup := by rintro _ ⟨⟩

theorem Selection.erase {presses row : ℕ} {memberIds : List Uid} {members : List FUser}
    (h : Selection currentId presses memberIds members) (hrow : row < members.length) :
    Selection currentId presses (memberIds.eraseIdx row) (members.eraseIdx row) where
  parallel := by
    rw [h.parallel, List.eraseIdx_append_of_lt_length (by simpa using hrow), List.eraseIdx_map]
  nodup := by
    rw [← List.eraseIdx_map]
    exact h.nodup.sublist (List.eraseIdx_sublist _ _)
  others user huser := h.others user ((List.eraseIdx_sublist _ _).subset huser)

theorem Selection.append {memberIds : List Uid} {members : List FUser} {user : FUser}
    (h : Selection currentId 0 memberIds members) (hnew : user.objectId ∉ memberIds)
    (hother : user.objectId ≠ currentId) :
    Selection currentId 0 (memberIds ++ [user.objectId]) (members ++ [user]) where
  parallel := by simp [h.parallel]
  nodup := by
    rw [List.map_append, List.map_singleton, ← List.concat_eq_append]
    exact h.nodup.concat (by simpa [h.parallel] using hnew)
  others u hu := by
    rcases List.mem_append.mp hu with hu | hu
    · exact h.others u hu
    · rw [List.mem_singleton.mp hu]
      exact hother

theorem selection_select {vc : ContactsTableViewController} {user : FUser}
    (h : Selection currentId 0 vc.memberIdsOfGroupChat vc.membersOfGroupChat)
    (hother : user.objectId ≠ currentId) :
    Selection currentId 0 (vc.select user).memberIdsOfGroupChat (vc.select user).membersOfGroupChat := by
  unfold ContactsTableViewController.select
  by_cases hmem : user.objectId ∈ vc.memberIdsOfGroupChat
  · have hlength : vc.memberIdsOfGroupChat.length = vc.membersOfGroupChat.length := by
      simp [h.parallel]
    simp only [List.contains_iff_mem, hmem, if_true]
    exact h.erase (hlength ▸ List.idxOf_lt_length_of_mem hmem)
  · simp only [List.contains_iff_mem, hmem, if_false]
    exact h.append hmem hother

theorem selecting_compareUsers {w : GroupCreation} (hI : Selecting currentId w) :
    Selecting currentId { w with contacts := w.contacts.compareUsers device } := by
  have hmatched : ∀ user ∈ (w.contacts.compareUsers device).matchedUsers,
      user.objectId ≠ currentId := by
    intro user huser
    rcases List.mem_append.mp huser with hold | hnew
    · exact hI.matched user hold
    · exact hI.users user (List.mem_filter.mp hnew).1
  refine { hI with matched := hmatched, listed := fun user hlists => ?_ }
  rcases UserSections.lists_of_split hlists with hold | hnew
  · exact hI.listed user hold
  · exact hmatched user hnew

theorem selecting_loadUsers {w : GroupCreation} (hI : Selecting currentId w) (snapshot : List FUser) :
    Selecting currentId { w with contacts := w.contacts.loadUsers device currentId snapshot } := by
  unfold ContactsTableViewController.loadUsers
  split_ifs
  · exact selecting_compareUsers hI
  · refine selecting_compareUsers (w := { w with contacts := { w.contacts with
      matchedUsers := []
      users := snapshot.filter fun fUser => fUser.objectId ≠ currentId } }) ?_
    refine { hI with users := fun user huser => ?_, matched := by rintro _ ⟨⟩ }
    simpa using (List.mem_filter.mp huser).2

theorem others_of_userToChat {w : GroupCreation} (hI : Selecting currentId w) {sectionIndex row : ℕ}
    {user : FUser} (h : w.contacts.userToChat sectionIndex row = some user) :
    user.objectId ≠ currentId := by
  unfold ContactsTableViewController.userToChat at h
  split_ifs at h
  · obtain ⟨_, -, h⟩ := Option.bind_eq_some_iff.mp h
    exact hI.filtered user (List.mem_of_getElem? h)
  · exact hI.listed user (UserSections.lists_of_user h)

theorem createButtonPressed_cases {w w' : GroupCreation} {subject groupId avatar : String}
    (h : step device currentId w (.createButtonPressed subject groupId avatar) = some w') :
    (subject = "" ∧ w' = w) ∨ ∃ vc, subject ≠ "" ∧ w.newGroup = some vc ∧
      w' = { w with
        newGroup := some { vc with memberIds := vc.memberIds ++ [currentId] }
        isInChat := true
        presses := w.presses + 1
        groups := w.groups ++
          [Group.make groupId subject currentId (vc.memberIds ++ [currentId]) avatar] } := by
  obtain ⟨vc, hvc, h⟩ := Option.bind_eq_some_iff.mp h
  by_cases hsubject : subject = ""
  · left
    simp only [NewGroupViewController.createButtonPressed, hsubject, ne_eq, not_true_eq_false,
      if_false, Option.ite_none_left_eq_some, Option.some.injEq] at h
    exact ⟨hsubject, h.2.symm⟩
  · right
    simp only [NewGroupViewController.createButtonPressed, hsubject, ne_eq, not_false_eq_true,
      if_true, Option.ite_none_left_eq_some, Option.some.injEq] at h
    exact ⟨vc, hsubject, hvc, h.2.symm⟩

theorem selecting_step {w w' : GroupCreation} {a : GroupCreationAction} (hI : Selecting currentId w)
    (h : step device currentId w a = some w') : Selecting currentId w' := by
  cases a with
  | loadUsers snapshot =>
    obtain rfl := Option.some.inj h
    exact selecting_loadUsers hI snapshot
  | updateSearchResults searchText =>
    simp only [step, Option.ite_none_right_eq_some, Option.some.injEq] at h
    obtain ⟨-, rfl⟩ := h
    exact { hI with filtered := fun user huser => hI.matched user (List.mem_filter.mp huser).1 }
  | didSelectRow sectionIndex row =>
    obtain ⟨user, huser, h⟩ := Option.bind_eq_some_iff.mp h
    simp only [Option.ite_none_right_eq_some, Option.some.injEq] at h
    obtain ⟨-, rfl⟩ := h
    have hselect := selection_select hI.contacts (others_of_userToChat hI huser)
    obtain ⟨husers, hmatched, hfiltered, hsections⟩ := select_lists w.contacts user
    exact ⟨husers ▸ hI.users, hmatched ▸ hI.matched, hfiltered ▸ hI.filtered,
      hsections ▸ hI.listed, hselect, hI.newGroup⟩
  | nextButtonPressed =>
    simp only [step, Option.ite_none_right_eq_some, Option.some.injEq] at h
    obtain ⟨-, rfl⟩ := h
    refine { hI with newGroup := ?_ }
    rintro vc ⟨⟩
    exact hI.contacts
  | didClickDeleteButton row =>
    obtain ⟨vc, hvc, h⟩ := Option.bind_eq_some_iff.mp h
    obtain ⟨vc', hdelete, h⟩ := Option.bind_eq_some_iff.mp h
    simp only [Option.ite_none_left_eq_some, Option.some.injEq] at h
    obtain ⟨-, rfl⟩ := h
    simp only [NewGroupViewController.didClickDeleteButton, Option.ite_none_right_eq_some,
      Option.some.injEq] at hdelete
    obtain ⟨⟨hrow, -⟩, rfl⟩ := hdelete
    refine { hI with newGroup := ?_ }
    rintro _ ⟨⟩
    exact (hI.newGroup vc hvc).erase hrow
  | createButtonPressed subject groupId avatar =>
    rcases createButtonPressed_cases h with ⟨-, rfl⟩ | ⟨vc, -, hvc, rfl⟩
    · exact hI
    · refine { hI with newGroup := ?_ }
      rintro _ ⟨⟩
      -- Create appends the current user to the ids only
      obtain ⟨hparallel, hnodup, hothers⟩ := hI.newGroup vc hvc
      refine ⟨?_, hnodup, hothers⟩
      rw [hparallel, List.append_assoc, ← List.replicate_succ']
  | backToNewGroup =>
    simp only [step, Option.ite_none_right_eq_some, Option.some.injEq] at h
    obtain ⟨-, rfl⟩ := h
    exact { hI with }
  | backToContacts =>
    simp only [step, Option.ite_none_left_eq_some, Option.some.injEq] at h
    obtain ⟨-, rfl⟩ := h
    exact { hI with newGroup := by rintro _ ⟨⟩ }

theorem selecting_always (actions : List GroupCreationAction) :
    Runs.Always (step device currentId) (Selecting currentId) init actions :=
  Runs.always_of_step (fun _ _ _ hI hstep => selecting_step hI hstep) selecting_init actions

/-- In an empty room every member of a new group gets exactly one Recent, where the list
of members has no duplicates. -/
theorem existsUnique_startGroupChat {group : Group} (hnodup : group.members.Nodup) (date : String)
    {s : Recents} (hempty : s.inRoom group.groupId = []) {u : Uid} (hu : u ∈ group.members) :
    ∃! r, r ∈ ((Operation.createRecent currentId date (startGroupChat group)).run s).inRoom
      group.groupId ∧ r.userId = some u := by
  have hcomplete : (startGroupChat group).Complete := rfl
  refine Operation.existsUnique_run_createRecent currentId date hcomplete hnodup (fun r hr => ?_) hu
  rw [show (startGroupChat group).chatRoomId = group.groupId from rfl, hempty] at hr
  exact absurd hr List.not_mem_nil

/-- The current user is a member once more than Create has been pressed before. -/
theorem wellFormed_iff {presses : ℕ} {memberIds : List Uid} {members : List FUser}
    (h : Selection currentId presses memberIds members) (subject groupId avatar : String) :
    WellFormed currentId members
      (Group.make groupId subject currentId (memberIds ++ [currentId]) avatar) ↔ presses = 0 := by
  have hothers : currentId ∉ members.map FUser.objectId := by
    intro hmem
    obtain ⟨user, huser, hid⟩ := List.mem_map.mp hmem
    exact h.others user huser hid
  have hmembers : memberIds ++ [currentId] =
      members.map FUser.objectId ++ List.replicate (presses + 1) currentId := by
    rw [h.parallel, List.append_assoc, ← List.replicate_succ']
  constructor
  · rintro ⟨-, hcount, -, -⟩
    have hcount : (memberIds ++ [currentId]).count currentId = 1 := hcount
    rw [hmembers, List.count_append, List.count_eq_zero.mpr hothers, List.count_replicate_self] at hcount
    omega
  · rintro rfl
    have hnodup : (memberIds ++ [currentId]).Nodup := by
      rw [hmembers]
      exact h.nodup.append (List.nodup_singleton _) (by simpa using hothers)
    refine ⟨hnodup, ?_, fun u => ?_, fun date s hempty u hu =>
      existsUnique_startGroupChat hnodup date hempty hu⟩
    · exact List.count_eq_one_of_mem hnodup (by simp [Group.make])
    · show u ∈ memberIds ++ [currentId] ↔ _
      rw [hmembers, List.mem_append, or_comm]
      simp

theorem createsWellFormed_iff {w w' : GroupCreation} {a : GroupCreationAction}
    (hI : Selecting currentId w) (h : step device currentId w a = some w') :
    w.CreatesWellFormed device currentId a ↔ w.FirstPress a := by
  cases a with
  | createButtonPressed subject groupId avatar =>
    refine forall_congr' fun hsubject => ?_
    obtain ⟨hempty, -⟩ | ⟨vc, -, hvc, hw'⟩ := createButtonPressed_cases h
    · exact absurd hempty hsubject
    · rw [← wellFormed_iff (hI.newGroup vc hvc) subject groupId avatar]
      constructor
      · intro hcreates
        obtain ⟨group, hgroups, hgroup⟩ := hcreates vc w' hvc h
        rw [hw'] at hgroups
        obtain rfl := List.singleton_inj.mp (List.append_cancel_left hgroups)
        exact hgroup
      · intro hgroup vc' w'' hvc' h'
        obtain rfl : vc = vc' := Option.some.inj (hvc.symm.trans hvc')
        obtain rfl : w' = w'' := Option.some.inj (h.symm.trans h')
        exact ⟨_, by rw [hw'], hgroup⟩
  | _ => exact Iff.rfl

variable (device) (currentId)

/-- However members are selected and dropped, and whatever the queries return: all groups
that are created have the listed users and the current user as members, each once, and
starting their chats gives every member exactly one Recent, exactly when Create is pressed
no more than once on each screen that Next opens. -/
theorem groups_wellFormed_iff (actions : List GroupCreationAction) :
    Runs.Guarded (step device currentId) (CreatesWellFormed device currentId) init actions ↔
      Runs.Guarded (step device currentId) FirstPress init actions :=
  Runs.guarded_iff_of_always (selecting_always actions) fun _ _ _ hI hstep =>
    createsWellFormed_iff hI hstep

/-- Every phone number is that of a contact, and all users are under one title. -/
def anyContact : Device := ⟨fun _ => true, fun _ => "B", fun _ _ => true⟩

/-- Alice selects Boris, creates a group, returns from its chat and presses Create again. -/
def createTwice : List GroupCreationAction :=
  [.loadUsers [FUser.make "alice" none 0 0 "" "Alice" "" "" "" "" "" "",
      FUser.make "boris" none 0 0 "" "Boris" "" "" "" "5550100" "" ""],
    .didSelectRow 0 0, .nextButtonPressed, .createButtonPressed "Trip" "trip" "", .backToNewGroup,
    .createButtonPressed "Trip" "trip2" ""]

/-- The second group has Alice as a member twice, and she gets two Recents. -/
theorem group_created_with_duplicate :
    (Runs.exec (step anyContact "alice") init createTwice).map (fun w =>
      w.groups.map Group.members) = some [["boris", "alice"], ["boris", "alice", "alice"]] ∧
    ((Operation.createRecent "alice" "20190204120000" (startGroupChat
      (Group.make "trip2" "Trip" "alice" ["boris", "alice", "alice"] ""))).run
        Recents.empty).all.map Recent.userId = [some "boris", some "alice", some "alice"] ∧
    ¬ Runs.Guarded (step anyContact "alice") (CreatesWellFormed anyContact "alice") init
      createTwice :=
  ⟨by decide +kernel, by decide +kernel,
    mt (Runs.guarded_iff_of_always (selecting_always _) fun _ _ _ hI hstep =>
      createsWellFormed_iff hI hstep).mp (by decide +kernel)⟩

end GroupCreation

end LiChat
