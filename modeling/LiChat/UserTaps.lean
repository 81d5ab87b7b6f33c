import LiChat.GroupCreation
import LiChat.UserTables

/-!
# Taps on users

Three screens look up the user of an index path three times: for the cell, for a tap on the
row, and for a tap on the avatar, whose cell keeps the index path it has been generated with.
-/

namespace LiChat
open Blocks UserList

/-- `searchController.isActive && searchController.searchBar.text != ""` -/
def IsSearching (searchText : Option String) : Prop := searchText.isSome ∧ searchText ≠ some ""

instance (searchText : Option String) : Decidable (IsSearching searchText) :=
  inferInstanceAs (Decidable (_ ∧ _))

namespace UserSections

variable (searchText : Option String) (filtered : List FUser) (s : UserSections)

/-- `count` is the number of keys of a dictionary. -/
def IsNumberOfSections (n : ℕ) : Prop :=
  n = if IsSearching searchText then 1 else {title | (s.allUsersGroupped title).isSome}.ncard

def numberOfRowsInSection (sectionIndex : ℕ) : Option ℕ :=
  if IsSearching searchText then some filtered.length
  else do
    let sectionTitle ← s.sectionTitleList[sectionIndex]?
    let users ← s.allUsersGroupped sectionTitle
    some users.length

/-- The user of an index path, in the list of the search or in the sections. -/
def rowUser (sectionIndex row : ℕ) : Option FUser :=
  if IsSearching searchText then filtered[row]? else s.user sectionIndex row

def ShowsRow (sectionIndex row : ℕ) : Prop :=
  (∃ n, IsNumberOfSections searchText s n ∧ sectionIndex < n) ∧
    ∃ n, numberOfRowsInSection searchText filtered s sectionIndex = some n ∧ row < n

/-- Distinct titles, and one non-empty group for each title. -/
structure Consistent : Prop where
  nodup : s.sectionTitleList.Nodup
  grouped : ∀ title, (s.allUsersGroupped title).isSome ↔ title ∈ s.sectionTitleList
  nonempty : ∀ title users, s.allUsersGroupped title = some users → users ≠ []

def HasInRow (sectionIndex row : ℕ) (user : FUser) : Prop :=
  ∃ title users, s.sectionTitleList[sectionIndex]? = some title ∧
    s.allUsersGroupped title = some users ∧ users[row]? = some user

end UserSections

/-- The screen of users; `searchText` is the text of an active search. -/
structure UsersTableViewController where
  list : UserList
  filteredUsers : List FUser
  searchText : Option String

namespace UsersTableViewController
variable (vc : UsersTableViewController)

def ShowsRow : ℕ → ℕ → Prop := vc.list.sections.ShowsRow vc.searchText vc.filteredUsers

def cellForRowAt (sectionIndex row : ℕ) : Option FUser :=
  vc.list.sections.rowUser vc.searchText vc.filteredUsers sectionIndex row

def didSelectRowAt (sectionIndex row : ℕ) : Option FUser :=
  vc.list.sections.rowUser vc.searchText vc.filteredUsers sectionIndex row

def didTapAvatarImage (sectionIndex row : ℕ) : Option FUser :=
  vc.list.sections.rowUser vc.searchText vc.filteredUsers sectionIndex row

end UsersTableViewController

namespace ContactsTableViewController
variable (vc : ContactsTableViewController)

def ShowsRow : ℕ → ℕ → Prop := vc.sections.ShowsRow vc.searchText vc.filteredMatchedUsers

def cellForRowAt (sectionIndex row : ℕ) : Option FUser :=
  vc.sections.rowUser vc.searchText vc.filteredMatchedUsers sectionIndex row

/-- The title is read in a search as well. -/
def didSelectRowAt (sectionIndex row : ℕ) : Option FUser := vc.userToChat sectionIndex row

/-- The title is that of the section with the number of the row. -/
def didTapAvatarImage (_sectionIndex row : ℕ) : Option FUser :=
  vc.sections.rowUser vc.searchText vc.filteredMatchedUsers row row

end ContactsTableViewController

namespace InviteUserTableViewController
variable (list : UserList)

/-- This screen has no search. -/
def ShowsRow : ℕ → ℕ → Prop := list.sections.ShowsRow none []

def cellForRowAt (sectionIndex row : ℕ) : Option FUser := list.sections.user sectionIndex row

def didSelectRowAt (sectionIndex row : ℕ) : Option FUser := list.sections.user sectionIndex row

def didTapAvatarImage (sectionIndex row : ℕ) : Option FUser := list.sections.user sectionIndex row

end InviteUserTableViewController

/-- None of the lookups traps, and all find the same user. -/
def SameUser (cell selected avatar : Option FUser) : Prop :=
  ∃ user, cell = some user ∧ selected = some user ∧ avatar = some user

namespace UserSections
variable {searchText : Option String} {filtered : List FUser} {s : UserSections}
  {sectionIndex row : ℕ} {user : FUser}

theorem user_eq_some_iff : s.user sectionIndex row = some user ↔ s.HasInRow sectionIndex row user := by
  simp only [UserSections.user, HasInRow, Option.bind_eq_bind, Option.bind_eq_some_iff]
  constructor
  · rintro ⟨title, htitle, users, husers, huser⟩
    exact ⟨title, users, htitle, husers, huser⟩
  · rintro ⟨title, users, htitle, husers, huser⟩
    exact ⟨title, htitle, users, husers, huser⟩

theorem Consistent.ncard (h : s.Consistent) :
    {title | (s.allUsersGroupped title).isSome}.ncard = s.sectionTitleList.length := by
  have hkeys : {title | (s.allUsersGroupped title).isSome} =
      (s.sectionTitleList.toFinset : Set String) := by
    ext title
    simp [h.grouped title]
  rw [hkeys, Set.ncard_coe_finset, List.toFinset_card_of_nodup h.nodup]

theorem Consistent.isSome_rows (h : s.Consistent) {n : ℕ}
    (hn : IsNumberOfSections searchText s n) (hsection : sectionIndex < n) :
    (numberOfRowsInSection searchText filtered s sectionIndex).isSome := by
  by_cases hsearch : IsSearching searchText
  · rw [numberOfRowsInSection, if_pos hsearch]
    rfl
  · rw [IsNumberOfSections, if_neg hsearch, h.ncard] at hn
    subst hn
    have htitle : s.sectionTitleList[sectionIndex]? = some s.sectionTitleList[sectionIndex] :=
      List.getElem?_eq_getElem hsection
    obtain ⟨users, husers⟩ :=
      Option.isSome_iff_exists.mp ((h.grouped _).mpr (List.getElem_mem hsection))
    simp [numberOfRowsInSection, hsearch, htitle, husers]

theorem ShowsRow.exists_user (h : s.ShowsRow searchText filtered sectionIndex row) :
    ∃ user, s.rowUser searchText filtered sectionIndex row = some user := by
  obtain ⟨-, n, hn, hrow⟩ := h
  unfold numberOfRowsInSection at hn
  unfold rowUser
  split_ifs at hn ⊢ with hsearch
  · obtain rfl := Option.some.inj hn
    exact ⟨_, List.getElem?_eq_getElem hrow⟩
  · obtain ⟨title, htitle, hn⟩ := Option.bind_eq_some_iff.mp hn
    obtain ⟨users, husers, hn⟩ := Option.bind_eq_some_iff.mp hn
    obtain rfl := Option.some.inj hn
    exact ⟨_, user_eq_some_iff.mpr ⟨title, users, htitle, husers, List.getElem?_eq_getElem hrow⟩⟩

theorem ShowsRow.section_eq_zero (h : s.ShowsRow searchText filtered sectionIndex row)
    (hsearch : IsSearching searchText) : sectionIndex = 0 := by
  obtain ⟨⟨n, hn, hsection⟩, -⟩ := h
  rw [IsNumberOfSections, if_pos hsearch] at hn
  omega

end UserSections

/-- Users that are loaded with first letters, those of one letter after each other, make a
consistent table. -/
theorem consistent_splitDataIntoSections {firstCharString : String → String} {users : List FUser}
    (h : UserSections.HaveTitles firstCharString users)
    (hadjacent : Adjacent (UserSections.titleOf firstCharString) users) :
    (UserList.splitDataIntoSections firstCharString
      { UserList.empty with allUsers := users }).sections.Consistent := by
  have hnodup := (UserSections.nodup_opened_start h).mpr hadjacent
  rw [sections_of_adjacent h hadjacent]
  refine ⟨(List.nodup_cons.mp hnodup).2, fun title => ?_, fun title group hgroup => ?_⟩
  · by_cases hmem : title ∈ opened (UserSections.titleOf firstCharString) "" users
    · simp [hmem]
    · simp [hmem]
  · obtain ⟨hmem, hgroup⟩ := Option.ite_none_right_eq_some.mp hgroup
    -- the title has come with a user
    have hne : title ≠ "" := fun heq => (List.nodup_cons.mp hnodup).1 (heq ▸ hmem)
    obtain ⟨user, huser, htitle⟩ := List.mem_map.mp ((mem_opened hne).mp hmem)
    rw [← Option.some.inj hgroup]
    exact List.ne_nil_of_mem (List.mem_filter.mpr ⟨huser, by simpa using htitle⟩)

theorem sameUser_self {o : Option FUser} (h : ∃ user, o = some user) : SameUser o o o := by
  obtain ⟨user, huser⟩ := h
  exact ⟨user, huser, huser, huser⟩

/-- A tap on the avatar of a contact goes right: in a search; and where the section with the
number of the row is the section itself or has the same user in that row. -/
def AvatarInPlace (vc : ContactsTableViewController) (sectionIndex row : ℕ) : Prop :=
  ¬ IsSearching vc.searchText → row = sectionIndex ∨
    ∃ user, vc.sections.HasInRow sectionIndex row user ∧ vc.sections.HasInRow row row user

/-- A tap on a contact finds a title: in a search, the first one. -/
def HasTitle (vc : ContactsTableViewController) : Prop :=
  IsSearching vc.searchText → vc.sections.sectionTitleList ≠ []

theorem contacts_sameUser_iff {vc : ContactsTableViewController} {sectionIndex row : ℕ}
    (h : vc.ShowsRow sectionIndex row) :
    SameUser (vc.cellForRowAt sectionIndex row) (vc.didSelectRowAt sectionIndex row)
      (vc.didTapAvatarImage sectionIndex row) ↔
        HasTitle vc ∧ AvatarInPlace vc sectionIndex row := by
  obtain ⟨user, huser⟩ := h.exists_user
  unfold HasTitle AvatarInPlace
  by_cases hsearch : IsSearching vc.searchText
  · obtain rfl := h.section_eq_zero hsearch
    have hfound : vc.filteredMatchedUsers[row]? = some user := by
      rwa [UserSections.rowUser, if_pos hsearch] at huser
    have hselected : vc.didSelectRowAt 0 row =
        vc.sections.sectionTitleList[0]?.bind fun _ => vc.filteredMatchedUsers[row]? := if_pos hsearch
    have havatar : vc.didTapAvatarImage 0 row = some user := by
      rw [ContactsTableViewController.didTapAvatarImage, UserSections.rowUser, if_pos hsearch, hfound]
    rw [ContactsTableViewController.cellForRowAt, huser, hselected, havatar, hfound]
    -- the title is read although the search does not use it
    cases htitles : vc.sections.sectionTitleList with
    | nil => simp [SameUser, hsearch]
    | cons title titles => simp [SameUser, hsearch]
  · -- the avatar asks for the row `row` of the section `row`
    have hcell : vc.sections.user sectionIndex row = some user := by
      rwa [UserSections.rowUser, if_neg hsearch] at huser
    have hselected : vc.didSelectRowAt sectionIndex row = some user := (if_neg hsearch).trans hcell
    have havatar : vc.didTapAvatarImage sectionIndex row = vc.sections.user row row := if_neg hsearch
    rw [ContactsTableViewController.cellForRowAt, huser, hselected, havatar]
    constructor
    · rintro ⟨user', heq, -, hrow⟩
      obtain rfl := Option.some.inj heq
      exact ⟨fun hs => absurd hs hsearch, fun _ => .inr ⟨user, UserSections.user_eq_some_iff.mp hcell,
        UserSections.user_eq_some_iff.mp hrow⟩⟩
    · rintro ⟨-, hplace⟩
      refine ⟨user, rfl, rfl, ?_⟩
      rcases hplace hsearch with rfl | ⟨user', hhere, hthere⟩
      · exact hcell
      · have hsame := UserSections.user_eq_some_iff.mpr hhere
        rw [hcell] at hsame
        obtain rfl := Option.some.inj hsame
        exact UserSections.user_eq_some_iff.mpr hthere

/-- Where nobody is listed under two titles, the avatar is in place in the row with the number
of the section only. -/
theorem avatarInPlace_iff {vc : ContactsTableViewController} {sectionIndex row : ℕ}
    (hnodup : vc.sections.sectionTitleList.Nodup)
    (hdisjoint : ∀ title title' users users' user, vc.sections.allUsersGroupped title = some users →
      vc.sections.allUsersGroupped title' = some users' → user ∈ users → user ∈ users' →
      title = title') :
    AvatarInPlace vc sectionIndex row ↔ (¬ IsSearching vc.searchText → row = sectionIndex) := by
  refine imp_congr_right fun _ => or_iff_left_of_imp ?_
  rintro ⟨user, ⟨title, users, htitle, husers, huser⟩, ⟨title', users', htitle', husers', huser'⟩⟩
  obtain rfl := hdisjoint title title' users users' user husers husers'
    (List.mem_of_getElem? huser) (List.mem_of_getElem? huser')
  obtain ⟨hsection, hsectionTitle⟩ := List.getElem?_eq_some_iff.mp htitle
  obtain ⟨hrow, hrowTitle⟩ := List.getElem?_eq_some_iff.mp htitle'
  exact (List.Nodup.getElem_inj_iff hnodup).mp (hrowTitle.trans hsectionTitle.symm)

/-- In a consistent state the table can ask every section for its rows.  The three lookups of a
shown row find the same user: always in two of the screens, and in the list of contacts exactly
where a title is found and the avatar is in place. -/
theorem taps_open_shown_user_iff (users : UsersTableViewController) (invite : UserList)
    (contacts : ContactsTableViewController) (sectionIndex row : ℕ) :
    (∀ (searchText : Option String) (filtered : List FUser) (s : UserSections) (n : ℕ),
      s.Consistent → UserSections.IsNumberOfSections searchText s n → sectionIndex < n →
      (UserSections.numberOfRowsInSection searchText filtered s sectionIndex).isSome) ∧
    (users.list.sections.Consistent → users.ShowsRow sectionIndex row →
      SameUser (users.cellForRowAt sectionIndex row) (users.didSelectRowAt sectionIndex row)
        (users.didTapAvatarImage sectionIndex row)) ∧
    (invite.sections.Consistent → InviteUserTableViewController.ShowsRow invite sectionIndex row →
      SameUser (InviteUserTableViewController.cellForRowAt invite sectionIndex row)
        (InviteUserTableViewController.didSelectRowAt invite sectionIndex row)
        (InviteUserTableViewController.didTapAvatarImage invite sectionIndex row)) ∧
    (contacts.sections.Consistent → contacts.ShowsRow sectionIndex row →
      (SameUser (contacts.cellForRowAt sectionIndex row) (contacts.didSelectRowAt sectionIndex row)
        (contacts.didTapAvatarImage sectionIndex row) ↔
          HasTitle contacts ∧ AvatarInPlace contacts sectionIndex row)) := by
  refine ⟨fun searchText filtered s n h hn hsection => h.isSome_rows hn hsection,
    fun _ h => sameUser_self h.exists_user, fun _ h => ?_, fun _ h => contacts_sameUser_iff h⟩
  have hnone : ¬ IsSearching none := by decide
  have huser := UserSections.ShowsRow.exists_user h
  rw [UserSections.rowUser, if_neg hnone] at huser
  exact sameUser_self huser

def annaAmyBoris : ContactsTableViewController :=
  { ContactsTableViewController.initial with
    sections := ⟨["A", "B"], fun title =>
      if title = "A" then some [userNamed "Anna", userNamed "Amy"]
      else if title = "B" then some [userNamed "Boris"] else none⟩ }

theorem consistent_annaAmyBoris : annaAmyBoris.sections.Consistent where
  nodup := by decide
  grouped title := by
    by_cases hA : title = "A"
    · simp [annaAmyBoris, hA]
    · by_cases hB : title = "B" <;> simp [annaAmyBoris, hA, hB]
  nonempty title users h := by
    simp only [annaAmyBoris] at h
    split_ifs at h
    · rw [← Option.some.inj h]
      exact List.cons_ne_nil _ _
    · rw [← Option.some.inj h]
      exact List.cons_ne_nil _ _

/-- The avatar of Boris opens Anna, and the avatar of Amy asks for a row that is not there. -/
theorem avatar_opens_other_user :
    annaAmyBoris.sections.Consistent ∧
    annaAmyBoris.ShowsRow 1 0 ∧ annaAmyBoris.cellForRowAt 1 0 = some (userNamed "Boris") ∧
    annaAmyBoris.didTapAvatarImage 1 0 = some (userNamed "Anna") ∧
    annaAmyBoris.ShowsRow 0 1 ∧ annaAmyBoris.cellForRowAt 0 1 = some (userNamed "Amy") ∧
    annaAmyBoris.didTapAvatarImage 0 1 = none ∧
    ¬ SameUser (annaAmyBoris.cellForRowAt 1 0) (annaAmyBoris.didSelectRowAt 1 0)
      (annaAmyBoris.didTapAvatarImage 1 0) := by
  have hcount : UserSections.IsNumberOfSections none annaAmyBoris.sections 2 := by
    rw [UserSections.IsNumberOfSections, if_neg (by decide), consistent_annaAmyBoris.ncard]
    rfl
  have hcell : annaAmyBoris.cellForRowAt 1 0 = some (userNamed "Boris") := by decide +kernel
  have havatar : annaAmyBoris.didTapAvatarImage 1 0 = some (userNamed "Anna") := by decide +kernel
  refine ⟨consistent_annaAmyBoris, ⟨⟨2, hcount, by decide⟩, 1, by decide +kernel, by decide⟩, hcell,
    havatar, ⟨⟨2, hcount, by decide⟩, 2, by decide +kernel, by decide⟩, by decide +kernel,
    by decide +kernel, ?_⟩
  rintro ⟨user, huser, -, huser'⟩
  rw [hcell] at huser
  rw [havatar] at huser'
  exact absurd (huser.trans huser'.symm) (by decide +kernel)

end LiChat
