import LiChat.General.Blocks
import LiChat.User
import Mathlib.Logic.Function.Basic
import Mathlib.Data.Set.Card

/-!
# Tables of users in sections

Three screens list users under the first letters of their names.
-/

namespace LiChat
open Blocks

/-- The titles in the order of the table, and the users under each title. -/
structure UserSections where
  sectionTitleList : List String
  allUsersGroupped : String → Option (List FUser)

namespace UserSections

def empty : UserSections := ⟨[], fun _ => none⟩

/-- The row of an index path; `none` is the trap on a section or a row out of range. -/
def user (s : UserSections) (sectionIndex row : ℕ) : Option FUser := do
  let sectionTitle ← s.sectionTitleList[sectionIndex]?
  let users ← s.allUsersGroupped sectionTitle
  users[row]?

/-- A new title empties its section. -/
def addTitle (append : List String → String → List String) (sectionTitle : String)
    (s : UserSections) : UserSections :=
  ⟨append s.sectionTitleList sectionTitle,
    Function.update s.allUsersGroupped sectionTitle (some [])⟩

/-- The loop of `splitDataIntoSections`, where `sectionTitle` is the title of the user
before.  `firstCharString` stands for the uppercased first letter that `pingying` returns,
`append` for what a screen does with the title of a new section. -/
def split (append : List String → String → List String) (firstCharString : String → String) :
    String → UserSections → List FUser → UserSections
  | _, s, [] => s
  | sectionTitle, s, currentUser :: users =>
    let title := firstCharString currentUser.firstname
    let s := if title ≠ sectionTitle then s.addTitle append title else s
    split append firstCharString title
      { s with
        allUsersGroupped := Function.update s.allUsersGroupped title
          ((s.allUsersGroupped title).map (· ++ [currentUser])) } users

def titleOf (firstCharString : String → String) (user : FUser) : String :=
  firstCharString user.firstname

section Split
variable {append : List String → String → List String} {firstCharString : String → String}
  {sectionTitle : String} {user : FUser} {users : List FUser}

theorem split_cons_same (s : UserSections) (h : titleOf firstCharString user = sectionTitle) :
    split append firstCharString sectionTitle s (user :: users) =
      split append firstCharString sectionTitle
        ⟨s.sectionTitleList, Function.update s.allUsersGroupped sectionTitle
          ((s.allUsersGroupped sectionTitle).map (· ++ [user]))⟩ users := by
  subst h
  simp [split, titleOf]

theorem split_cons_ne (s : UserSections) (h : titleOf firstCharString user ≠ sectionTitle) :
    split append firstCharString sectionTitle s (user :: users) =
      split append firstCharString (titleOf firstCharString user)
        ⟨append s.sectionTitleList (titleOf firstCharString user),
          Function.update s.allUsersGroupped (titleOf firstCharString user) (some [user])⟩ users := by
  have hne : firstCharString user.firstname ≠ sectionTitle := h
  simp [split, titleOf, hne, addTitle]

/-- Where no title comes back, every new section holds all users of its title, and the
users of the open one are added to it. -/
theorem split_eq (s : UserSections)
    (h : (sectionTitle :: opened (titleOf firstCharString) sectionTitle users).Nodup) :
    split append firstCharString sectionTitle s users =
      ⟨(opened (titleOf firstCharString) sectionTitle users).foldl append s.sectionTitleList,
        fun title => if title ∈ opened (titleOf firstCharString) sectionTitle users
          then some (users.filter fun user => titleOf firstCharString user = title)
          else (s.allUsersGroupped title).map
            (· ++ users.filter fun user => titleOf firstCharString user = title)⟩ := by
  induction users generalizing sectionTitle s with
  | nil => simp [split, opened]
  | cons user users ih =>
    by_cases hsame : titleOf firstCharString user = sectionTitle
    · rw [opened_cons_same hsame] at h ⊢
      rw [split_cons_same s hsame, ih _ h]
      congr 1
      funext title
      by_cases htitle : title = sectionTitle
      · subst htitle
        simp only [(List.nodup_cons.mp h).1, Function.update_self, Option.map_map, hsame,
          List.filter_cons_of_pos, decide_true, if_false]
        congr 1
        funext before
        simp
      · have hne : ¬ titleOf firstCharString user = title := fun heq => htitle (heq.symm.trans hsame)
        simp [Function.update_of_ne htitle, hne]
    · rw [opened_cons_ne hsame] at h ⊢
      obtain ⟨-, hnodup⟩ := List.nodup_cons.mp h
      rw [split_cons_ne s hsame, ih _ hnodup]
      congr 1
      funext title
      by_cases htitle : title = titleOf firstCharString user
      · subst htitle
        simp [(List.nodup_cons.mp hnodup).1]
      · have hne : ¬ titleOf firstCharString user = title := fun heq => htitle heq.symm
        simp [htitle, hne]

theorem prefix_split {before : List String} {s : UserSections}
    (h : ∀ titles title, titles <+: append titles title) (hbefore : before <+: s.sectionTitleList) :
    before <+: (split append firstCharString sectionTitle s users).sectionTitleList := by
  induction users generalizing sectionTitle s with
  | nil => exact hbefore
  | cons user users ih =>
    by_cases hsame : titleOf firstCharString user = sectionTitle
    · rw [split_cons_same s hsame]
      exact ih hbefore
    · rw [split_cons_ne s hsame]
      exact ih (hbefore.trans (h _ _))

end Split

def HaveTitles (firstCharString : String → String) (users : List FUser) : Prop :=
  ∀ user ∈ users, titleOf firstCharString user ≠ ""

instance (firstCharString : String → String) (users : List FUser) :
    Decidable (HaveTitles firstCharString users) :=
  inferInstanceAs (Decidable (∀ user ∈ users, titleOf firstCharString user ≠ ""))

theorem nodup_opened_start {firstCharString : String → String} {users : List FUser}
    (h : HaveTitles firstCharString users) :
    ("" :: opened (titleOf firstCharString) "" users).Nodup ↔ Adjacent (titleOf firstCharString) users := by
  have hstart : "" ∉ users.map (titleOf firstCharString) := by
    intro hmem
    obtain ⟨user, huser, heq⟩ := List.mem_map.mp hmem
    exact h user huser heq
  rw [nodup_opened]
  exact and_iff_right fun hmem => absurd hmem hstart

def titles (firstCharString : String → String) (users : List FUser) : List String :=
  (users.map (titleOf firstCharString)).eraseDups

theorem opened_eq_titles {firstCharString : String → String} {users : List FUser}
    (h : HaveTitles firstCharString users) (hadjacent : Adjacent (titleOf firstCharString) users) :
    opened (titleOf firstCharString) "" users = titles firstCharString users := by
  have hnodup := (nodup_opened_start h).mpr hadjacent
  have hfilter : (users.map (titleOf firstCharString)).filter (fun title => !title == "") =
      users.map (titleOf firstCharString) := by
    rw [List.filter_eq_self]
    intro title htitle
    obtain ⟨user, huser, rfl⟩ := List.mem_map.mp htitle
    simp [h user huser]
  have hcons := eraseDups_opened hnodup
  rw [List.eraseDups_cons, hfilter] at hcons
  exact (List.cons_eq_cons.mp hcons).2

/-- The table shows the users, each under the title of the first name. -/
structure Shows (firstCharString : String → String) (s : UserSections) (users : List FUser) : Prop where
  nodup : s.sectionTitleList.Nodup
  count : {title | (s.allUsersGroupped title).isSome}.ncard = s.sectionTitleList.length
  users : (s.sectionTitleList.map fun title => (s.allUsersGroupped title).getD []).flatten = users
  titled : ∀ title group, s.allUsersGroupped title = some group →
    ∀ user ∈ group, titleOf firstCharString user = title

theorem shows_of_adjacent {firstCharString : String → String} {users : List FUser}
    (h : HaveTitles firstCharString users) (hadjacent : Adjacent (titleOf firstCharString) users) :
    Shows firstCharString ⟨titles firstCharString users, fun title =>
      if title ∈ titles firstCharString users
      then some (users.filter fun user => titleOf firstCharString user = title) else none⟩ users := by
  have hnodup := (nodup_opened_start h).mpr hadjacent
  rw [← opened_eq_titles h hadjacent]
  refine ⟨(List.nodup_cons.mp hnodup).2, ?_, ?_, fun title group hgroup user huser => ?_⟩
  · have hkeys : {title | ((if title ∈ opened (titleOf firstCharString) "" users
        then some (users.filter fun user => titleOf firstCharString user = title) else none) :
          Option (List FUser)).isSome} =
        ((opened (titleOf firstCharString) "" users).toFinset : Set String) := by
      ext title
      simp
    rw [hkeys, Set.ncard_coe_finset, List.toFinset_card_of_nodup (List.nodup_cons.mp hnodup).2]
  · have hflatten := flatten_opened hnodup
    have hnone : (users.filter fun user => titleOf firstCharString user = "") = [] := by
      rw [List.filter_eq_nil_iff]
      intro user huser
      simp [h user huser]
    rw [List.map_cons, List.flatten_cons, hnone, List.nil_append] at hflatten
    conv_rhs => rw [← hflatten]
    congr 1
    apply List.map_congr_left
    intro title htitle
    have hmem : title ∈ opened (titleOf firstCharString) "" users := htitle
    simp [hmem]
  · obtain ⟨-, hgroup⟩ := Option.ite_none_right_eq_some.mp hgroup
    rw [← Option.some.inj hgroup] at huser
    exact of_decide_eq_true (List.mem_filter.mp huser).2

def Lists (s : UserSections) (u : FUser) : Prop :=
  ∃ title users, s.allUsersGroupped title = some users ∧ u ∈ users

theorem lists_of_user {s : UserSections} {sectionIndex row : ℕ} {u : FUser}
    (h : s.user sectionIndex row = some u) : s.Lists u := by
  obtain ⟨title, -, h⟩ := Option.bind_eq_some_iff.mp h
  obtain ⟨users, husers, h⟩ := Option.bind_eq_some_iff.mp h
  exact ⟨title, users, husers, List.mem_of_getElem? h⟩

theorem lists_of_addTitle {append : List String → String → List String} {sectionTitle : String}
    {s : UserSections} {u : FUser} (h : (s.addTitle append sectionTitle).Lists u) : s.Lists u := by
  obtain ⟨title, users, husers, hu⟩ := h
  by_cases htitle : title = sectionTitle
  · subst htitle
    obtain rfl : [] = users := by simpa [addTitle] using husers
    exact absurd hu List.not_mem_nil
  · exact ⟨title, users, by simpa [addTitle, htitle] using husers, hu⟩

theorem lists_of_append {s : UserSections} {sectionTitle : String} {currentUser u : FUser}
    (h : Lists { s with
      allUsersGroupped := Function.update s.allUsersGroupped sectionTitle
        ((s.allUsersGroupped sectionTitle).map (· ++ [currentUser])) } u) :
    s.Lists u ∨ u = currentUser := by
  obtain ⟨title, users, husers, hu⟩ := h
  by_cases htitle : title = sectionTitle
  · subst htitle
    simp only [Function.update_self] at husers
    obtain ⟨before, hbefore, rfl⟩ := Option.map_eq_some_iff.mp husers
    rcases List.mem_append.mp hu with hu | hu
    · exact Or.inl ⟨title, before, hbefore, hu⟩
    · exact Or.inr (List.mem_singleton.mp hu)
  · simp only [Function.update_of_ne htitle] at husers
    exact Or.inl ⟨title, users, husers, hu⟩

theorem lists_of_split {append : List String → String → List String} {firstCharString : String → String}
    {sectionTitle : String} {s : UserSections} {users : List FUser} {u : FUser}
    (h : (split append firstCharString sectionTitle s users).Lists u) : s.Lists u ∨ u ∈ users := by
  induction users generalizing sectionTitle s with
  | nil => exact Or.inl h
  | cons currentUser users ih =>
    rcases ih h with happended | hu
    · rcases lists_of_append happended with hlists | rfl
      · left
        split_ifs at hlists
        · exact lists_of_addTitle hlists
        · exact hlists
      · exact Or.inr List.mem_cons_self
    · exact Or.inr (List.mem_cons_of_mem _ hu)

end UserSections

end LiChat
