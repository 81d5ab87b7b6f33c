import LiChat.UserFilters

/-!
# Sections of the user tables

Users are split into sections in the order of the query, by first name, and a section
begins whenever the first letter changes.
-/

namespace LiChat
open Blocks

/-- Both screens have a copy of the function. -/
def UsersTableViewController.splitDataIntoSections (firstCharString : String → String) :
    UserList → UserList :=
  UserList.splitDataIntoSections firstCharString

def InviteUserTableViewController.splitDataIntoSections (firstCharString : String → String) :
    UserList → UserList :=
  UserList.splitDataIntoSections firstCharString

namespace UserList

def Sectioned (firstCharString : String → String) (list : UserList) : Prop :=
  list.sections.Shows firstCharString list.allUsers

variable {firstCharString : String → String} {users : List FUser}

theorem split_sectionTitleList {sectionTitle : String} (s : UserSections) :
    (UserSections.split (fun titles title => titles ++ [title]) firstCharString sectionTitle s
      users).sectionTitleList =
      s.sectionTitleList ++ opened (UserSections.titleOf firstCharString) sectionTitle users := by
  induction users generalizing sectionTitle s with
  | nil => exact (List.append_nil _).symm
  | cons user users ih =>
    by_cases hsame : UserSections.titleOf firstCharString user = sectionTitle
    · rw [UserSections.split_cons_same s hsame, ih, opened_cons_same hsame]
    · rw [UserSections.split_cons_ne s hsame, ih, opened_cons_ne hsame, List.append_assoc]
      rfl

theorem sections_of_adjacent (h : UserSections.HaveTitles firstCharString users)
    (hadjacent : Adjacent (UserSections.titleOf firstCharString) users) :
    (splitDataIntoSections firstCharString { empty with allUsers := users }).sections =
      ⟨opened (UserSections.titleOf firstCharString) "" users, fun title =>
        if title ∈ opened (UserSections.titleOf firstCharString) "" users
        then some (users.filter fun user => UserSections.titleOf firstCharString user = title)
        else none⟩ := by
  have hsplit := @UserSections.split_eq (fun titles title => titles ++ [title]) _ _ _
    UserSections.empty ((UserSections.nodup_opened_start h).mpr hadjacent)
  have htitles : (opened (UserSections.titleOf firstCharString) "" users).foldl
      (fun titles title => titles ++ [title]) UserSections.empty.sectionTitleList =
      opened (UserSections.titleOf firstCharString) "" users := by
    have hlist := congrArg UserSections.sectionTitleList hsplit
    rw [split_sectionTitleList] at hlist
    exact hlist.symm
  rw [htitles] at hsplit
  exact hsplit

theorem sectioned_iff (h : UserSections.HaveTitles firstCharString users) :
    Sectioned firstCharString (splitDataIntoSections firstCharString { empty with allUsers := users }) ↔
      Adjacent (UserSections.titleOf firstCharString) users := by
  constructor
  · intro hsectioned
    have hnodup := hsectioned.nodup
    rw [splitDataIntoSections, split_sectionTitleList] at hnodup
    apply (UserSections.nodup_opened_start h).mp
    refine List.nodup_cons.mpr ⟨fun hmem => ?_, hnodup⟩
    -- the first section begins with a first letter
    cases users with
    | nil => cases hmem
    | cons user users =>
      have hne := h user List.mem_cons_self
      rw [opened_cons_ne hne, List.mem_cons] at hmem
      obtain ⟨other, hother, htitle⟩ : ∃ other ∈ user :: users,
          UserSections.titleOf firstCharString other = "" := by
        rcases hmem with heq | hmem
        · exact ⟨user, List.mem_cons_self, heq.symm⟩
        · obtain ⟨other, hother, htitle⟩ := List.mem_map.mp ((mem_opened (Ne.symm hne)).mp hmem)
          exact ⟨other, List.mem_cons_of_mem _ hother, htitle⟩
      exact h other hother htitle
  · intro hadjacent
    have hshows := UserSections.shows_of_adjacent h hadjacent
    rw [← UserSections.opened_eq_titles h hadjacent] at hshows
    rw [Sectioned, sections_of_adjacent h hadjacent]
    exact hshows

/-- On emptied tables, for users whose first names have first letters: every user is in the
table once, under the title of the first name and in the order of the list, and the titles
are the keys of the groups, each once, exactly when users with the same title are
adjacent. -/
theorem sections_show_users_iff (firstCharString : String → String) (users : List FUser)
    (h : UserSections.HaveTitles firstCharString users) :
    (Sectioned firstCharString (UsersTableViewController.splitDataIntoSections firstCharString
        { empty with allUsers := users }) ↔ Adjacent (UserSections.titleOf firstCharString) users) ∧
      (Sectioned firstCharString (InviteUserTableViewController.splitDataIntoSections firstCharString
        { empty with allUsers := users }) ↔ Adjacent (UserSections.titleOf firstCharString) users) :=
  ⟨sectioned_iff h, sectioned_iff h⟩

/-- The first letter of a Latin name without diacritics. -/
def latinLetter (name : String) : String := String.ofList ((name.toList.take 1).map Char.toUpper)

def userNamed (firstname : String) : FUser :=
  FUser.make firstname none 0 0 "" firstname "" "" "" "" "" ""

theorem sections_show_users_upper_case :
    Sectioned latinLetter (UsersTableViewController.splitDataIntoSections latinLetter
      { empty with allUsers := ["Alice", "Anna", "Boris"].map userNamed }) :=
  (sections_show_users_iff latinLetter _ (by decide +kernel)).1.mpr
    (by decide +kernel)

/-- Lower case comes after upper case: "anna" opens a second section "A", which replaces
that of Alice. -/
theorem sections_lose_user :
    (["Alice", "Boris", "anna"].Pairwise (· ≤ ·)) ∧
    UserSections.HaveTitles latinLetter (["Alice", "Boris", "anna"].map userNamed) ∧
    (splitDataIntoSections latinLetter
      { empty with allUsers := ["Alice", "Boris", "anna"].map userNamed }).sections.sectionTitleList =
        ["A", "B", "A"] ∧
    (splitDataIntoSections latinLetter
      { empty with allUsers := ["Alice", "Boris", "anna"].map userNamed }).sections.allUsersGroupped "A" =
        some [userNamed "anna"] ∧
    ¬ Sectioned latinLetter (UsersTableViewController.splitDataIntoSections latinLetter
      { empty with allUsers := ["Alice", "Boris", "anna"].map userNamed }) ∧
    ¬ Sectioned latinLetter (InviteUserTableViewController.splitDataIntoSections latinLetter
      { empty with allUsers := ["Alice", "Boris", "anna"].map userNamed }) := by
  have htitles : UserSections.HaveTitles latinLetter (["Alice", "Boris", "anna"].map userNamed) := by
    decide +kernel
  have hnot : ¬ Adjacent (UserSections.titleOf latinLetter) (["Alice", "Boris", "anna"].map userNamed) := by
    decide +kernel
  refine ⟨by decide +kernel, htitles, by decide +kernel, by decide +kernel, ?_, ?_⟩
  · exact fun h => hnot ((sectioned_iff htitles).mp h)
  · exact fun h => hnot ((sectioned_iff htitles).mp h)

end UserList

end LiChat
