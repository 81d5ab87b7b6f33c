import LiChat.General.Documents
import LiChat.General.Runs
import LiChat.General.Toggle
import LiChat.RecentOperations

/-!
# Invitations to a group

A chat reads the Group document once, when it opens.  Every screen that is reached from
it works with that copy, and Done replaces the stored member lists by lists computed
from the copy.
-/

namespace LiChat
open Documents Toggle

/-- The screen that invites users; `isEnabled` belongs to its Done button. -/
structure InviteUserTableViewController where
  group : Group
  currentMemberIds : List Uid
  newMemberIds : List Uid
  isEnabled : Bool
  deriving DecidableEq, Repr

namespace InviteUserTableViewController

def viewDidLoad (group : Group) : InviteUserTableViewController :=
  ⟨group, group.members, [], false⟩

/-- A tap on the row of a user: members are refused, others are selected or dropped. -/
def didSelectRow (vc : InviteUserTableViewController) (objectId : Uid) :
    InviteUserTableViewController :=
  if vc.currentMemberIds.contains objectId then vc
  else
    let newMemberIds := toggle objectId vc.newMemberIds
    { vc with newMemberIds := newMemberIds, isEnabled := 0 < newMemberIds.length }

/-- The member lists that `updateGroup` writes. -/
def tempMembers (vc : InviteUserTableViewController) : List Uid :=
  vc.currentMemberIds ++ vc.newMemberIds

def tempMembersToPush (vc : InviteUserTableViewController) : List Uid :=
  vc.group.membersToPush ++ vc.newMemberIds

@[simp] theorem didSelectRow_group (vc : InviteUserTableViewController) (objectId : Uid) :
    (vc.didSelectRow objectId).group = vc.group := by
  unfold didSelectRow
  split_ifs <;> rfl

@[simp] theorem didSelectRow_currentMemberIds (vc : InviteUserTableViewController) (objectId : Uid) :
    (vc.didSelectRow objectId).currentMemberIds = vc.currentMemberIds := by
  unfold didSelectRow
  split_ifs <;> rfl

end InviteUserTableViewController

/-- The Group documents, the copies that open chats hold, the screens that invite
users, and the updates on their way to the documents. -/
structure GroupWorld (κ : Type) where
  groups : String → Option Group
  chats : κ → Option Group
  screens : κ → Option InviteUserTableViewController
  inFlight : List InviteUserTableViewController

inductive GroupAction (κ : Type) where
  | saveGroup (groupId subject : String) (currentId : Uid) (memberIds : List Uid) (avatar : String)
  | getCurrentGroup (chat : κ) (groupId : String)
  | saveButtonPressed (chat : κ) (name avatar : String)
  | inviteUsers (chat screen : κ)
  | didSelectRow (screen : κ) (objectId : Uid)
  | doneButtonPressed (screen : κ)
  | updateData (n : ℕ)

namespace GroupWorld

variable {κ : Type} [DecidableEq κ]

def init : GroupWorld κ := ⟨fun _ => none, fun _ => none, fun _ => none, []⟩

/-- One action on some device, or one update that reaches the store; updates of
different devices arrive in any order.  Group ids are fresh UUIDs. -/
def step (w : GroupWorld κ) : GroupAction κ → Option (GroupWorld κ)
  | .saveGroup groupId subject currentId memberIds avatar =>
    if w.groups groupId = none then
      let group := Group.make groupId subject currentId (memberIds ++ [currentId]) avatar
      some { w with groups := Function.update w.groups groupId (some group) }
    else none
  | .getCurrentGroup chat groupId => do
    let group ← w.groups groupId
    some { w with chats := Function.update w.chats chat (some group) }
  | .saveButtonPressed chat name avatar => do
    let group ← w.chats chat
    let stored ← w.groups group.groupId
    if name ≠ "" then
      some { w with
        groups := Function.update w.groups group.groupId
          (some { stored with name := name, avatar := avatar }) }
    else none
  | .inviteUsers chat screen => do
    let group ← w.chats chat
    some { w with
      screens := Function.update w.screens screen
        (some (InviteUserTableViewController.viewDidLoad group)) }
  | .didSelectRow screen objectId => do
    let vc ← w.screens screen
    some { w with screens := Function.update w.screens screen (some (vc.didSelectRow objectId)) }
  | .doneButtonPressed screen => do
    let vc ← w.screens screen
    if vc.isEnabled then some { w with inFlight := w.inFlight ++ [vc] } else none
  | .updateData n => do
    let vc ← w.inFlight[n]?
    let stored ← w.groups vc.group.groupId
    some { w with
      groups := Function.update w.groups vc.group.groupId
        (some { stored with members := vc.tempMembers, membersToPush := vc.tempMembersToPush })
      inFlight := w.inFlight.eraseIdx n }

/-- Every member of a stored group is still a member of it. -/
def MembersKept (w w' : GroupWorld κ) : Prop :=
  ∀ groupId g, w.groups groupId = some g →
    ∃ g', w'.groups groupId = some g' ∧ ∀ u ∈ g.members, u ∈ g'.members

/-- When an update arrives, every stored member was in the copy of the screen that has
sent it, or was selected there. -/
def CopyCovers (w : GroupWorld κ) : GroupAction κ → Prop
  | .updateData n => ∀ vc g, w.inFlight[n]? = some vc → w.groups vc.group.groupId = some g →
      ∀ u ∈ g.members, u ∈ vc.currentMemberIds ∨ u ∈ vc.newMemberIds
  | _ => True

omit [DecidableEq κ] in
theorem MembersKept.refl (w : GroupWorld κ) : MembersKept w w :=
  fun _ g hg => ⟨g, hg, fun _ hu => hu⟩

omit [DecidableEq κ] in
theorem MembersKept.trans {w w' w'' : GroupWorld κ} (h : MembersKept w w')
    (h' : MembersKept w' w'') : MembersKept w w'' := by
  intro groupId g hg
  obtain ⟨g', hg', hsub⟩ := h groupId g hg
  obtain ⟨g'', hg'', hsub'⟩ := h' groupId g' hg'
  exact ⟨g'', hg'', fun u hu => hsub' u (hsub u hu)⟩

omit [DecidableEq κ] in
theorem membersKept_update {w w' : GroupWorld κ} {groupId : String} {stored new : Group}
    (hstored : w.groups groupId = some stored)
    (hgroups : w'.groups = Function.update w.groups groupId (some new)) :
    MembersKept w w' ↔ ∀ u ∈ stored.members, u ∈ new.members := by
  have hnew : w'.groups groupId = some new := by
    rw [hgroups]
    exact Function.update_self ..
  constructor
  · intro h
    obtain ⟨g', hg', hsub⟩ := h groupId stored hstored
    obtain rfl : new = g' := Option.some.inj (hnew.symm.trans hg')
    exact hsub
  · intro h id g hg
    by_cases hid : id = groupId
    · subst hid
      obtain rfl : stored = g := Option.some.inj (hstored.symm.trans hg)
      exact ⟨new, hnew, h⟩
    · refine ⟨g, ?_, fun _ hu => hu⟩
      rw [hgroups, Function.update_of_ne hid]
      exact hg

theorem updateData_cases {w w' : GroupWorld κ} {n : ℕ} (h : w.step (.updateData n) = some w') :
    ∃ vc stored, w.inFlight[n]? = some vc ∧ w.groups vc.group.groupId = some stored ∧
      w' = { w with
        groups := Function.update w.groups vc.group.groupId
          (some { stored with members := vc.tempMembers, membersToPush := vc.tempMembersToPush })
        inFlight := w.inFlight.eraseIdx n } := by
  obtain ⟨vc, hvc, h⟩ := Option.bind_eq_some_iff.mp h
  obtain ⟨stored, hstored, h⟩ := Option.bind_eq_some_iff.mp h
  exact ⟨vc, stored, hvc, hstored, (Option.some.inj h).symm⟩

theorem membersKept_step {w w' : GroupWorld κ} {a : GroupAction κ} (h : w.step a = some w') :
    MembersKept w w' ↔ w.CopyCovers a := by
  -- most actions leave the documents alone
  have hsame : w'.groups = w.groups → (MembersKept w w' ↔ True) := by
    intro hgroups
    refine iff_true_intro fun groupId g hg => ⟨g, ?_, fun _ hu => hu⟩
    rw [hgroups]
    exact hg
  cases a with
  | saveGroup groupId subject currentId memberIds avatar =>
    simp only [step, Option.ite_none_right_eq_some, Option.some.injEq] at h
    obtain ⟨hnone, rfl⟩ := h
    refine iff_true_intro fun id g hg => ⟨g, ?_, fun _ hu => hu⟩
    have hid : id ≠ groupId := by
      rintro rfl
      rw [hnone] at hg
      exact absurd hg.symm (Option.some_ne_none g)
    exact (Function.update_of_ne hid ..).trans hg
  | getCurrentGroup chat groupId =>
    obtain ⟨group, -, h⟩ := Option.bind_eq_some_iff.mp h
    obtain rfl := Option.some.inj h
    exact hsame rfl
  | saveButtonPressed chat name avatar =>
    obtain ⟨group, -, h⟩ := Option.bind_eq_some_iff.mp h
    obtain ⟨stored, hstored, h⟩ := Option.bind_eq_some_iff.mp h
    simp only [Option.ite_none_right_eq_some, Option.some.injEq] at h
    obtain ⟨-, rfl⟩ := h
    rw [membersKept_update hstored rfl]
    exact iff_true_intro fun _ hu => hu
  | inviteUsers chat screen =>
    obtain ⟨group, -, h⟩ := Option.bind_eq_some_iff.mp h
    obtain rfl := Option.some.inj h
    exact hsame rfl
  | didSelectRow screen objectId =>
    obtain ⟨vc, -, h⟩ := Option.bind_eq_some_iff.mp h
    obtain rfl := Option.some.inj h
    exact hsame rfl
  | doneButtonPressed screen =>
    obtain ⟨vc, -, h⟩ := Option.bind_eq_some_iff.mp h
    simp only [Option.ite_none_right_eq_some, Option.some.injEq] at h
    obtain ⟨-, rfl⟩ := h
    exact hsame rfl
  | updateData n =>
    obtain ⟨vc, stored, hvc, hstored, rfl⟩ := updateData_cases h
    rw [membersKept_update hstored rfl]
    constructor
    · intro hkept vc' g hvc' hg u hu
      obtain rfl : vc = vc' := Option.some.inj (hvc.symm.trans hvc')
      obtain rfl : stored = g := Option.some.inj (hstored.symm.trans hg)
      exact List.mem_append.mp (hkept u hu)
    · intro hcovers u hu
      exact List.mem_append.mpr (hcovers vc stored hvc hstored u hu)

/-- However the screens of any devices are opened and used and in whatever order their
updates arrive: every arrived update has brought the users that it invites into the
document, and nobody who has been a member of a group is ever missing exactly when every
update covers the members that it meets. -/
theorem members_never_lost_iff (actions : List (GroupAction κ)) :
    (∀ (w w' : GroupWorld κ) n, w.step (.updateData n) = some w' →
      ∃ vc g, w.inFlight[n]? = some vc ∧ w'.groups vc.group.groupId = some g ∧
        ∀ u ∈ vc.newMemberIds, u ∈ g.members) ∧
    (Runs.Keeps step MembersKept (init : GroupWorld κ) actions ↔
      Runs.Guarded step CopyCovers (init : GroupWorld κ) actions) := by
  constructor
  · intro w w' n h
    obtain ⟨vc, stored, hvc, -, rfl⟩ := updateData_cases h
    exact ⟨vc, _, hvc, Function.update_self .., fun u hu => List.mem_append_right _ hu⟩
  · exact Runs.keeps_iff_guarded MembersKept.refl MembersKept.trans
      fun w a w' h => membersKept_step h

/-- Two members open the invitation screen and select one user each. -/
def bothInvite : List (GroupAction Bool) :=
  [.saveGroup "trip" "Trip" "ann" ["bea"] "", .getCurrentGroup true "trip",
    .getCurrentGroup false "trip", .inviteUsers true true, .inviteUsers false false,
    .didSelectRow true "carl", .didSelectRow false "dora", .doneButtonPressed true,
    .doneButtonPressed false]

/-- The update that arrives last removes the user whom the other one has invited. -/
theorem members_lost_by_second_invitation :
    ∃ w g w' g', Runs.exec step init (bothInvite ++ [.updateData 0]) = some w ∧
      w.groups "trip" = some g ∧ g.members = ["bea", "ann", "carl"] ∧
      w.step (.updateData 0) = some w' ∧ w'.groups "trip" = some g' ∧
      g'.members = ["bea", "ann", "dora"] ∧
      ¬ Runs.Keeps step MembersKept init (bothInvite ++ [.updateData 0, .updateData 0]) := by
  refine ⟨_, _, _, _, rfl, rfl, rfl, rfl, rfl, rfl, fun h => ?_⟩
  obtain ⟨g', hg', hkept⟩ := h (bothInvite ++ [.updateData 0]) [.updateData 0] _ _
    (List.prefix_refl _) rfl rfl "trip" _ rfl
  obtain rfl := Option.some.inj hg'
  exact absurd (hkept "carl" (by decide)) (by decide)

/-- kMEMBERSTOPUSH equals kMEMBERS in every stored group, in every copy of one, and in
what every screen writes. -/
structure PushIsMembers (w : GroupWorld κ) : Prop where
  groups : ∀ groupId g, w.groups groupId = some g → g.membersToPush = g.members
  chats : ∀ k g, w.chats k = some g → g.membersToPush = g.members
  screens : ∀ k vc, w.screens k = some vc → vc.group.membersToPush = vc.currentMemberIds
  inFlight : ∀ vc ∈ w.inFlight, vc.group.membersToPush = vc.currentMemberIds

omit [DecidableEq κ] in
theorem pushIsMembers_init : PushIsMembers (init : GroupWorld κ) where
  groups := by rintro _ _ ⟨⟩
  chats := by rintro _ _ ⟨⟩
  screens := by rintro _ _ ⟨⟩
  inFlight := by rintro _ ⟨⟩

theorem pushIsMembers_step {w w' : GroupWorld κ} {a : GroupAction κ} (hI : PushIsMembers w)
    (h : w.step a = some w') : PushIsMembers w' := by
  cases a with
  | saveGroup groupId subject currentId memberIds avatar =>
    simp only [step, Option.ite_none_right_eq_some, Option.some.injEq] at h
    obtain ⟨-, rfl⟩ := h
    exact { hI with groups := forall_update hI.groups rfl }
  | getCurrentGroup chat groupId =>
    obtain ⟨group, hgroup, h⟩ := Option.bind_eq_some_iff.mp h
    obtain rfl := Option.some.inj h
    exact { hI with chats := forall_update hI.chats (hI.groups groupId group hgroup) }
  | saveButtonPressed chat name avatar =>
    obtain ⟨group, -, h⟩ := Option.bind_eq_some_iff.mp h
    obtain ⟨stored, hstored, h⟩ := Option.bind_eq_some_iff.mp h
    simp only [Option.ite_none_right_eq_some, Option.some.injEq] at h
    obtain ⟨-, rfl⟩ := h
    exact { hI with groups := forall_update hI.groups (hI.groups _ stored hstored) }
  | inviteUsers chat screen =>
    obtain ⟨group, hgroup, h⟩ := Option.bind_eq_some_iff.mp h
    obtain rfl := Option.some.inj h
    exact { hI with screens := forall_update hI.screens (hI.chats chat group hgroup) }
  | didSelectRow screen objectId =>
    obtain ⟨vc, hvc, h⟩ := Option.bind_eq_some_iff.mp h
    obtain rfl := Option.some.inj h
    refine { hI with screens := forall_update hI.screens ?_ }
    rw [InviteUserTableViewController.didSelectRow_group,
      InviteUserTableViewController.didSelectRow_currentMemberIds]
    exact hI.screens screen vc hvc
  | doneButtonPressed screen =>
    obtain ⟨vc, hvc, h⟩ := Option.bind_eq_some_iff.mp h
    simp only [Option.ite_none_right_eq_some, Option.some.injEq] at h
    obtain ⟨-, rfl⟩ := h
    refine { hI with inFlight := fun vc' hvc' => ?_ }
    rcases List.mem_append.mp hvc' with hold | hnew
    · exact hI.inFlight vc' hold
    · rw [List.mem_singleton.mp hnew]
      exact hI.screens screen vc hvc
  | updateData n =>
    obtain ⟨vc, stored, hvc, -, rfl⟩ := updateData_cases h
    refine { hI with
      groups := forall_update hI.groups ?_
      inFlight := fun vc' hvc' => hI.inFlight vc' ((List.eraseIdx_sublist _ _).subset hvc') }
    exact congrArg (· ++ vc.newMemberIds) (hI.inFlight vc (List.mem_of_getElem? hvc))

theorem pushIsMembers_reached {w : GroupWorld κ} {actions : List (GroupAction κ)}
    (h : Runs.exec step init actions = some w) : PushIsMembers w :=
  (Runs.always_of_step (fun _ _ _ hI hstep => pushIsMembers_step hI hstep) pushIsMembers_init
    actions).last h

end GroupWorld

end LiChat
