import LiChat.General.Runs
import LiChat.GroupCreation
import LiChat.UserTables

/-!
# Reloading the contacts

The contacts are loaded whenever the screen appears.  The matched users are collected anew,
but the sections of the table stay.
-/

namespace LiChat
open Blocks

namespace ContactsTableViewController
open UserSections

section
variable (device : Device) (currentId : Uid)

def matching (snapshot : List FUser) : List FUser :=
  (snapshot.filter fun fUser => fUser.objectId ≠ currentId).filter fun user =>
    user.phoneNumber ≠ "" ∧ device.isContact user.phoneNumber

/-- The callback of `loadUsers` with its trap: `pingying` takes the first letter of every
matching user's name, also where there is none. -/
def loadUsers? (snapshot : List FUser) (vc : ContactsTableViewController) :
    Option ContactsTableViewController :=
  let vc := vc.loadUsers device currentId snapshot
  if HaveTitles device.firstCharString vc.matchedUsers then some vc else none

/-- Callbacks of `loadUsers`, one for each time the screen appears. -/
def loadAll (snapshots : List (List FUser)) : Option ContactsTableViewController :=
  Runs.exec (fun vc snapshot => vc.loadUsers? device currentId snapshot) initial snapshots

/-- The titles of the matching users, in the order in which they occur first. -/
def matchingTitles (snapshot : List FUser) : List String :=
  titles device.firstCharString (matching device currentId snapshot)

/-- The table shows the matching users of the snapshot, and nobody else. -/
structure ShowsLatest (vc : ContactsTableViewController) (snapshot : List FUser) : Prop where
  titles : vc.sections.sectionTitleList = matchingTitles device currentId snapshot
  shows : vc.sections.Shows device.firstCharString (matching device currentId snapshot)

/-- Matching users have first letters, and those with the same one are adjacent. -/
def Ordered (snapshot : List FUser) : Prop :=
  HaveTitles device.firstCharString (matching device currentId snapshot) ∧
    Adjacent (titleOf device.firstCharString) (matching device currentId snapshot)

/-- What the screen keeps is what it has made from the snapshot. -/
structure Latest (vc : ContactsTableViewController) (snapshot : List FUser) : Prop where
  matchedUsers : vc.matchedUsers = matching device currentId snapshot
  users : (vc.users.filter fun user => user.phoneNumber ≠ "" ∧ device.isContact user.phoneNumber) =
    matching device currentId snapshot
  sections : vc.sections = ⟨matchingTitles device currentId snapshot, fun title =>
    if title ∈ matchingTitles device currentId snapshot
    then some ((matching device currentId snapshot).filter fun user =>
      titleOf device.firstCharString user = title) else none⟩

end

variable {device : Device} {currentId : Uid}

theorem loadAll_concat (snapshots : List (List FUser)) (snapshot : List FUser) :
    loadAll device currentId (snapshots ++ [snapshot]) =
      (loadAll device currentId snapshots).bind fun vc => vc.loadUsers? device currentId snapshot := by
  simp only [loadAll, Runs.exec_append, Runs.exec_cons, Runs.exec_nil, Option.bind_fun_some]

theorem loadUsers_of_ne (vc : ContactsTableViewController) {snapshot : List FUser}
    (hne : snapshot ≠ []) : vc.loadUsers device currentId snapshot =
      splitDataInToSection device { vc with
        users := snapshot.filter fun fUser => fUser.objectId ≠ currentId
        matchedUsers := matching device currentId snapshot } := by
  have hempty : snapshot.isEmpty = false := by simpa using hne
  simp [loadUsers, hempty, compareUsers, matching]

theorem haveTitles_of_loadUsers {vc vc' : ContactsTableViewController} {snapshot : List FUser}
    (h : vc.loadUsers? device currentId snapshot = some vc') :
    HaveTitles device.firstCharString (matching device currentId snapshot) := by
  obtain ⟨htitles, -⟩ := Option.ite_none_right_eq_some.mp h
  by_cases hne : snapshot = []
  · subst hne
    exact fun user huser => nomatch huser
  · rw [loadUsers_of_ne vc hne] at htitles
    exact htitles

theorem Latest.showsLatest {vc : ContactsTableViewController} {snapshot : List FUser}
    (h : Latest device currentId vc snapshot) (hordered : Ordered device currentId snapshot) :
    ShowsLatest device currentId vc snapshot := by
  have hshows := shows_of_adjacent hordered.1 hordered.2
  refine ⟨by rw [h.sections], ?_⟩
  rw [h.sections]
  exact hshows

theorem foldl_titles {listed new : List String} (hnodup : new.Nodup) :
    new.foldl (fun titles title => if title ∈ titles then titles else titles ++ [title]) listed =
      listed ++ new.filter (· ∉ listed) := by
  induction new generalizing listed with
  | nil => simp
  | cons title new ih =>
    obtain ⟨hfresh, hnodup⟩ := List.nodup_cons.mp hnodup
    rw [List.foldl_cons, ih hnodup]
    by_cases hmem : title ∈ listed
    · rw [if_pos hmem, List.filter_cons_of_neg (by simpa using hmem)]
    · have hfilter : (new.filter (· ∉ listed ++ [title])) = new.filter (· ∉ listed) := by
        apply List.filter_congr
        intro other hother
        have hne : other ≠ title := fun heq => hfresh (heq ▸ hother)
        simp [hne]
      rw [if_neg hmem, hfilter, List.filter_cons_of_pos (by simpa using hmem), List.append_assoc]
      rfl

theorem foldl_titles_of_front {listed new : List String} (hnodup : new.Nodup)
    (hfront : listed <+: new) :
    new.foldl (fun titles title => if title ∈ titles then titles else titles ++ [title]) listed = new := by
  rw [foldl_titles hnodup]
  obtain ⟨rest, rfl⟩ := hfront
  have hdisjoint := (List.nodup_append.mp hnodup).2.2
  have hlisted : listed.filter (· ∉ listed) = [] := by
    simp [List.filter_eq_nil_iff]
  have hrest : rest.filter (· ∉ listed) = rest := by
    rw [List.filter_eq_self]
    intro title htitle
    simpa using fun hmem => hdisjoint title hmem title htitle rfl
  rw [List.filter_append, hlisted, hrest, List.nil_append]

/-- Sections of titles that are still at the front are replaced, and no other ones are
there. -/
theorem latest_of_front {vc : ContactsTableViewController} {before snapshot : List FUser}
    (h : Latest device currentId vc before) (hordered : Ordered device currentId snapshot)
    (hne : snapshot ≠ [])
    (hfront : matchingTitles device currentId before <+: matchingTitles device currentId snapshot) :
    Latest device currentId (vc.loadUsers device currentId snapshot) snapshot := by
  obtain ⟨htitles, hadjacent⟩ := hordered
  have hnodup := (nodup_opened_start htitles).mpr hadjacent
  have hopened : opened (titleOf device.firstCharString) "" (matching device currentId snapshot) =
      matchingTitles device currentId snapshot := opened_eq_titles htitles hadjacent
  rw [loadUsers_of_ne vc hne]
  refine ⟨rfl, rfl, ?_⟩
  show UserSections.split _ _ _ vc.sections (matching device currentId snapshot) = _
  rw [split_eq vc.sections hnodup, h.sections, hopened]
  congr 1
  · exact foldl_titles_of_front (hopened ▸ (List.nodup_cons.mp hnodup).2) hfront
  · funext title
    by_cases hmem : title ∈ matchingTitles device currentId snapshot
    · simp [hmem]
    · have hold : title ∉ matchingTitles device currentId before := fun hold => hmem (hfront.subset hold)
      simp [hmem, hold]

theorem latest_of_empty {vc : ContactsTableViewController} {before : List FUser}
    (h : Latest device currentId vc before)
    (hfront : matchingTitles device currentId before <+: matchingTitles device currentId []) :
    Latest device currentId (vc.loadUsers device currentId []) [] := by
  have hnone : matching device currentId before = [] := by
    have htitles : matchingTitles device currentId before = [] := List.prefix_nil.mp hfront
    by_contra hne
    obtain ⟨user, huser⟩ := List.exists_mem_of_ne_nil _ hne
    have hmem : titleOf device.firstCharString user ∈ matchingTitles device currentId before :=
      List.mem_eraseDups.mpr (List.mem_map_of_mem huser)
    rw [htitles] at hmem
    cases hmem
  have hmatched : vc.matchedUsers ++
      (vc.users.filter fun user => user.phoneNumber ≠ "" ∧ device.isContact user.phoneNumber) = [] := by
    rw [h.matchedUsers, h.users, hnone]
    rfl
  have hvc : vc.loadUsers device currentId [] = { vc with matchedUsers := [] } := by
    simp only [loadUsers, List.isEmpty_nil, if_true, compareUsers, hmatched, splitDataInToSection]
    rfl
  have hsections := h.sections
  have hlast : matchingTitles device currentId before = [] := List.prefix_nil.mp hfront
  rw [hlast] at hsections
  rw [hvc]
  exact ⟨rfl, by rw [h.users, hnone]; rfl, hsections⟩

theorem prefix_loadUsers (vc : ContactsTableViewController) (snapshot : List FUser) :
    vc.sections.sectionTitleList <+:
      (vc.loadUsers device currentId snapshot).sections.sectionTitleList := by
  have hadd : ∀ (titles : List String) (title : String),
      titles <+: if title ∈ titles then titles else titles ++ [title] := by
    intro titles title
    split_ifs
    · exact List.prefix_rfl
    · exact List.prefix_append _ _
  unfold loadUsers compareUsers splitDataInToSection
  apply prefix_split hadd
  split_ifs
  · exact List.prefix_rfl
  · exact List.prefix_rfl

theorem latest_loadAll {snapshots : List (List FUser)}
    (hordered : ∀ snapshot ∈ snapshots, Ordered device currentId snapshot)
    (hchain : (snapshots.map (matchingTitles device currentId)).IsChain (· <+: ·)) :
    ∃ vc, loadAll device currentId snapshots = some vc ∧
      Latest device currentId vc (snapshots.getLast?.getD []) := by
  induction snapshots using List.reverseRecOn with
  | nil => exact ⟨initial, rfl, rfl, rfl, rfl⟩
  | append_singleton snapshots snapshot ih =>
    rw [List.map_append, List.isChain_append] at hchain
    obtain ⟨hbefore, -, hlast⟩ := hchain
    obtain ⟨vc, hvc, hI⟩ := ih (fun before h => hordered before (List.mem_append_left _ h)) hbefore
    have hfront : matchingTitles device currentId (snapshots.getLast?.getD []) <+:
        matchingTitles device currentId snapshot := by
      cases hcases : snapshots.getLast? with
      | none => exact List.nil_prefix
      | some before =>
        exact hlast _ (by simp [List.getLast?_map, hcases]) _ (by simp)
    have hsnapshot : Ordered device currentId snapshot := hordered snapshot (by simp)
    have hlatest : Latest device currentId (vc.loadUsers device currentId snapshot) snapshot := by
      by_cases hne : snapshot = []
      · subst hne
        exact latest_of_empty hI hfront
      · exact latest_of_front hI hsnapshot hne hfront
    have htitles : HaveTitles device.firstCharString
        (vc.loadUsers device currentId snapshot).matchedUsers := by
      rw [hlatest.matchedUsers]
      exact hsnapshot.1
    rw [List.getLast?_concat, Option.getD_some, loadAll_concat, hvc, Option.bind_some]
    exact ⟨_, if_pos htitles, hlatest⟩

variable (device currentId)

/-- For every sequence of answers in which matching users with the same first letter are
adjacent: after each of them the table shows exactly the users of the answer who match a
contact, under titles in the order of first occurrence, exactly when matching users have
names and the titles of each answer begin with all titles of the one before. -/
theorem contacts_show_latest_iff (snapshots : List (List FUser))
    (hadjacent : ∀ snapshot ∈ snapshots,
      Adjacent (titleOf device.firstCharString) (matching device currentId snapshot)) :
    (∀ before snapshot, before ++ [snapshot] <+: snapshots →
      ∃ vc, loadAll device currentId (before ++ [snapshot]) = some vc ∧
        ShowsLatest device currentId vc snapshot) ↔
      (∀ snapshot ∈ snapshots,
        HaveTitles device.firstCharString (matching device currentId snapshot)) ∧
      (snapshots.map (matchingTitles device currentId)).IsChain (· <+: ·) := by
  constructor
  · intro h
    refine ⟨fun snapshot hmem => ?_, ?_⟩
    · obtain ⟨before, after, rfl⟩ := List.append_of_mem hmem
      have hfront : before ++ [snapshot] <+: before ++ snapshot :: after :=
        (List.prefix_append_right_inj before).mpr (List.cons_prefix_cons.mpr ⟨rfl, List.nil_prefix⟩)
      obtain ⟨vc, hvc, -⟩ := h before snapshot hfront
      rw [loadAll_concat, Option.bind_eq_some_iff] at hvc
      obtain ⟨vc₀, -, hvc⟩ := hvc
      exact haveTitles_of_loadUsers hvc
    · induction snapshots using List.reverseRecOn with
      | nil => exact List.IsChain.nil
      | append_singleton snapshots snapshot ih =>
        have hchain := ih (fun before hbefore => hadjacent before (List.mem_append_left _ hbefore))
          fun before last hfront => h before last (hfront.trans (List.prefix_append _ _))
        rw [List.map_append, List.isChain_append]
        refine ⟨hchain, List.isChain_singleton _, fun titles htitles titles' htitles' => ?_⟩
        obtain rfl : matchingTitles device currentId snapshot = titles' := by simpa using htitles'
        rw [List.getLast?_map, Option.mem_def, Option.map_eq_some_iff] at htitles
        obtain ⟨last, hlast, rfl⟩ := htitles
        obtain ⟨before, rfl⟩ := List.getLast?_eq_some_iff.mp hlast
        -- the titles that are shown after one answer are still there after the next
        obtain ⟨vc, hvc, hshown⟩ := h before last (List.prefix_append _ _)
        obtain ⟨vc', hvc', hnext⟩ := h (before ++ [last]) snapshot List.prefix_rfl
        rw [loadAll_concat, hvc, Option.bind_some] at hvc'
        obtain ⟨-, hvc'⟩ := Option.ite_none_right_eq_some.mp hvc'
        rw [← hshown.titles, ← hnext.titles, ← Option.some.inj hvc']
        exact prefix_loadUsers vc snapshot
  · rintro ⟨htitles, hchain⟩ before snapshot hfront
    have hordered : ∀ s ∈ before ++ [snapshot], Ordered device currentId s := by
      intro s hs
      exact ⟨htitles s (hfront.subset hs), hadjacent s (hfront.subset hs)⟩
    have hbefore : ((before ++ [snapshot]).map (matchingTitles device currentId)).IsChain (· <+: ·) :=
      hchain.infix (hfront.map (matchingTitles device currentId)).isInfix
    obtain ⟨vc, hvc, hI⟩ := latest_loadAll hordered hbefore
    rw [List.getLast?_concat, Option.getD_some] at hI
    exact ⟨vc, hvc, hI.showsLatest (hordered snapshot (by simp))⟩

def knowsEverybody : Device := ⟨fun _ => true, UserList.latinLetter, fun _ _ => true⟩

def phoneUser (firstname : String) : FUser :=
  FUser.make firstname none 0 0 "" firstname "" "" "" "+3247" "" ""

def alice : FUser := phoneUser "Alice"
def boris : FUser := phoneUser "Boris"

theorem adjacent_phoneUsers : ∀ snapshot ∈ [[alice], [alice, boris], []],
    Adjacent (titleOf knowsEverybody.firstCharString) (matching knowsEverybody "carl" snapshot) := by
  decide +kernel

theorem contacts_show_latest_more :
    ∃ vc, loadAll knowsEverybody "carl" [[alice], [alice, boris]] = some vc ∧
      ShowsLatest knowsEverybody "carl" vc [alice, boris] := by
  have hadjacent : ∀ snapshot ∈ [[alice], [alice, boris]],
      Adjacent (titleOf knowsEverybody.firstCharString)
        (matching knowsEverybody "carl" snapshot) := by
    intro snapshot hsnapshot
    exact adjacent_phoneUsers snapshot (List.mem_append_left _ hsnapshot)
  have hlatest := contacts_show_latest_iff knowsEverybody "carl" [[alice], [alice, boris]] hadjacent
  exact hlatest.mpr (by decide +kernel) [[alice]] [alice, boris] List.prefix_rfl

/-- Boris is gone from the second answer, but not from the table; after an empty answer
everybody is still there, and Alice twice. -/
theorem contacts_show_former :
    (∀ snapshot ∈ [[alice], [alice, boris], []],
      Adjacent (titleOf knowsEverybody.firstCharString) (matching knowsEverybody "carl" snapshot)) ∧
    (loadAll knowsEverybody "carl" [[alice, boris], [alice]]).map
      (·.sections.allUsersGroupped "B") = some (some [boris]) ∧
    ¬ (∃ vc, loadAll knowsEverybody "carl" [[alice, boris], [alice]] = some vc ∧
      ShowsLatest knowsEverybody "carl" vc [alice]) ∧
    (loadAll knowsEverybody "carl" [[alice], []]).map (·.sections.allUsersGroupped "A") =
      some (some [alice, alice]) ∧
    ¬ (∃ vc, loadAll knowsEverybody "carl" [[alice], []] = some vc ∧
      ShowsLatest knowsEverybody "carl" vc []) := by
  refine ⟨adjacent_phoneUsers, by decide +kernel, ?_, by decide +kernel, ?_⟩
  · rintro ⟨vc, hvc, hshows⟩
    have htitles : (loadAll knowsEverybody "carl" [[alice, boris], [alice]]).map
        (·.sections.sectionTitleList) = some ["A", "B"] := by decide +kernel
    rw [hvc, Option.map_some, hshows.titles] at htitles
    exact absurd htitles (by decide +kernel)
  · rintro ⟨vc, hvc, hshows⟩
    have htitles : (loadAll knowsEverybody "carl" [[alice], []]).map
        (·.sections.sectionTitleList) = some ["A"] := by decide +kernel
    rw [hvc, Option.map_some, hshows.titles] at htitles
    exact absurd htitles (by decide +kernel)

end ContactsTableViewController

end LiChat
