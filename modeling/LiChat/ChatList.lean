import LiChat.General.Runs
import LiChat.Recent
import Mathlib.Data.List.Sort

/-!
# The table of chats

The table asks for the number of its rows when it is reloaded, and for the Recent of a row
whenever that row is drawn, tapped or swiped.
-/

namespace LiChat

/-- `searchText` is the text of an active search; `rows` is what the table asked for at its
last `reloadData`. -/
structure ChatsViewController where
  recentChats : List Recent
  filteredChats : List Recent
  searchText : Option String
  rows : ℕ
  deriving DecidableEq, Repr

inductive ChatsAction where
  | loadRecentChats (snapshot : List Recent)
  | updateSearchResults (searchText : Option String)
  | cellForRowAt (row : ℕ)
  | didSelectRowAt (row : ℕ)
  | didTapAvatarImage (row : ℕ)
  | editActionsForRowAt (row : ℕ)
  | deleteAction (row : ℕ)
  | muteAction (row : ℕ)

namespace ChatsViewController

def init : ChatsViewController := ⟨[], [], none, 0⟩

/-- `searchController.isActive && searchController.searchBar.text != ""` -/
def isSearching (vc : ChatsViewController) : Bool :=
  vc.searchText.isSome && vc.searchText != some ""

def numberOfRowsInSection (vc : ChatsViewController) : ℕ :=
  if vc.isSearching then vc.filteredChats.length else vc.recentChats.length

def reloadData (vc : ChatsViewController) : ChatsViewController :=
  { vc with rows := vc.numberOfRowsInSection }

/-- The access by which every delegate method of the table gets its Recent; `none` is the
trap. -/
def recent (vc : ChatsViewController) (row : ℕ) : Option Recent :=
  if vc.isSearching then vc.filteredChats[row]? else vc.recentChats[row]?

/-- The callback of the listener; the table is not reloaded for an empty snapshot. -/
def loadRecentChats (snapshot : List Recent) (vc : ChatsViewController) : ChatsViewController :=
  if snapshot.isEmpty then { vc with recentChats := [] }
  else
    let sorted := snapshot.insertionSort fun r r' => r'.date ≤ r.date
    { vc with recentChats := sorted.filter fun recent => recent.lastMessage ≠ "" }.reloadData

/-- `contains` stands for the comparison of the lowercased texts. -/
def filterContentForSearchText (contains : String → String → Bool) (searchText : String)
    (vc : ChatsViewController) : ChatsViewController :=
  { vc with
    filteredChats :=
      vc.recentChats.filter fun recentChat => contains recentChat.withUserFullName searchText
    }.reloadData

def updateSearchResults (contains : String → String → Bool) (searchText : Option String)
    (vc : ChatsViewController) : ChatsViewController :=
  filterContentForSearchText contains (searchText.getD "") { vc with searchText := searchText }

/-- The actions of a swiped row: the Recent they are for, and whether the second one
mutes. -/
def editActionsForRowAt (currentId : Uid) (row : ℕ) (vc : ChatsViewController) :
    Option (Recent × Bool) := do
  let tempRecent ← vc.recent row
  some (tempRecent, tempRecent.membersToPush.contains currentId)

/-- What Delete does to the list, besides deleting the Recent of the swiped row; `none` is
the trap. -/
def deleteAction (row : ℕ) (vc : ChatsViewController) : Option ChatsViewController :=
  if row < vc.recentChats.length then
    some { vc with recentChats := vc.recentChats.eraseIdx row }.reloadData
  else none

def row? : ChatsAction → Option ℕ
  | .loadRecentChats _ | .updateSearchResults _ => none
  | .cellForRowAt row | .didSelectRowAt row | .didTapAvatarImage row | .editActionsForRowAt row
  | .deleteAction row | .muteAction row => some row

def Shows (vc : ChatsViewController) (a : ChatsAction) : Prop := ∀ row ∈ row? a, row < vc.rows

instance (vc : ChatsViewController) (a : ChatsAction) : Decidable (vc.Shows a) :=
  inferInstanceAs (Decidable (∀ row ∈ row? a, _))

variable (contains : String → String → Bool) (currentId : Uid)

/-- `none` is a trap, or an action on a row that is not shown. -/
def step (vc : ChatsViewController) (a : ChatsAction) : Option ChatsViewController :=
  if vc.Shows a then
    match a with
    | .loadRecentChats snapshot => some (vc.loadRecentChats snapshot)
    | .updateSearchResults searchText => some (vc.updateSearchResults contains searchText)
    | .cellForRowAt row | .didSelectRowAt row | .didTapAvatarImage row =>
      (vc.recent row).map fun _ => vc
    | .editActionsForRowAt row => (vc.editActionsForRowAt currentId row).map fun _ => vc
    | .deleteAction row => vc.deleteAction row
    | .muteAction _ => some vc
  else none

def InRange (vc : ChatsViewController) (a : ChatsAction) : Prop :=
  vc.Shows a → (vc.step contains currentId a).isSome

/-- Outside a search no row is used while the list is empty, and Delete is pressed in a
search only on a row whose number is also one of the whole list. -/
def ListHasRows (vc : ChatsViewController) (a : ChatsAction) : Prop :=
  vc.Shows a →
    match a with
    | .loadRecentChats _ | .updateSearchResults _ | .muteAction _ => True
    | .cellForRowAt _ | .didSelectRowAt _ | .didTapAvatarImage _ | .editActionsForRowAt _ =>
      vc.isSearching = false → vc.recentChats ≠ []
    | .deleteAction row =>
      if vc.isSearching then row < vc.recentChats.length else vc.recentChats ≠ []

/-- What the table shows are the rows of a search, or those of the list unless it is
empty. -/
structure Consistent (vc : ChatsViewController) : Prop where
  searching : vc.isSearching → vc.rows = vc.filteredChats.length
  listed : vc.isSearching = false → vc.rows = vc.recentChats.length ∨ vc.recentChats = []

variable {contains currentId}

theorem consistent_init : Consistent init where
  searching := by rintro ⟨⟩
  listed _ := Or.inl rfl

theorem consistent_reloadData (vc : ChatsViewController) : Consistent vc.reloadData := by
  constructor
  · intro h
    exact if_pos h
  · intro h
    exact Or.inl (if_neg (ne_true_of_eq_false h))

theorem step_cases {vc vc' : ChatsViewController} {a : ChatsAction}
    (h : vc.step contains currentId a = some vc') :
    (∃ vc'' : ChatsViewController, vc' = vc''.reloadData) ∨ vc' = { vc with recentChats := [] } ∨
      vc' = vc := by
  unfold step at h
  split_ifs at h
  cases a with
  | loadRecentChats snapshot =>
    simp only [loadRecentChats, Option.some.injEq] at h
    split_ifs at h
    · exact Or.inr (Or.inl h.symm)
    · exact Or.inl ⟨_, h.symm⟩
  | updateSearchResults searchText => exact Or.inl ⟨_, (Option.some.inj h).symm⟩
  | deleteAction row =>
    simp only [deleteAction, Option.ite_none_right_eq_some, Option.some.injEq] at h
    exact Or.inl ⟨_, h.2.symm⟩
  | muteAction row => exact Or.inr (Or.inr (Option.some.inj h).symm)
  | cellForRowAt row | didSelectRowAt row | didTapAvatarImage row | editActionsForRowAt row =>
    obtain ⟨-, -, rfl⟩ := Option.map_eq_some_iff.mp h
    exact Or.inr (Or.inr rfl)

theorem consistent_step {vc vc' : ChatsViewController} {a : ChatsAction} (hI : Consistent vc)
    (h : vc.step contains currentId a = some vc') : Consistent vc' := by
  rcases step_cases h with ⟨vc'', rfl⟩ | rfl | rfl
  · exact consistent_reloadData vc''
  · exact ⟨hI.searching, fun _ => Or.inr rfl⟩
  · exact hI

theorem consistent_always (actions : List ChatsAction) :
    Runs.Always (step contains currentId) Consistent init actions :=
  Runs.always_of_step (fun _ _ _ hI hstep => consistent_step hI hstep) consistent_init actions

theorem recent_isSome_iff {vc : ChatsViewController} {row : ℕ} (hI : Consistent vc)
    (hrow : row < vc.rows) : (vc.recent row).isSome ↔ (vc.isSearching = false → vc.recentChats ≠ []) := by
  unfold recent
  by_cases hsearch : vc.isSearching
  · have hlt : row < vc.filteredChats.length := hI.searching hsearch ▸ hrow
    simp [hsearch, hlt]
  · have hfalse : vc.isSearching = false := eq_false_of_ne_true hsearch
    rw [if_neg hsearch]
    constructor
    · intro hsome _ hempty
      simp [hempty] at hsome
    · intro hne
      have hlt : row < vc.recentChats.length := (hI.listed hfalse).resolve_right (hne hfalse) ▸ hrow
      simp [hlt]

theorem deleteAction_isSome_iff {vc : ChatsViewController} {row : ℕ} (hI : Consistent vc)
    (hrow : row < vc.rows) : (vc.deleteAction row).isSome ↔
      if vc.isSearching then row < vc.recentChats.length else vc.recentChats ≠ [] := by
  have hsome : (vc.deleteAction row).isSome ↔ row < vc.recentChats.length := by
    unfold deleteAction
    split_ifs with h
    · simp [h]
    · simp [h]
  rw [hsome]
  split_ifs with hsearch
  · exact Iff.rfl
  · have hfalse : vc.isSearching = false := eq_false_of_ne_true hsearch
    constructor
    · intro hlt
      exact List.ne_nil_of_length_pos (Nat.zero_lt_of_lt hlt)
    · intro hne
      exact (hI.listed hfalse).resolve_right hne ▸ hrow

theorem inRange_iff {vc : ChatsViewController} {a : ChatsAction} (hI : Consistent vc) :
    vc.InRange contains currentId a ↔ vc.ListHasRows a := by
  refine forall_congr' fun hshows => ?_
  unfold step
  rw [if_pos hshows]
  cases a with
  | loadRecentChats snapshot | updateSearchResults searchText | muteAction row => simp
  | cellForRowAt row | didSelectRowAt row | didTapAvatarImage row =>
    rw [Option.isSome_map]
    exact recent_isSome_iff hI (hshows row rfl)
  | editActionsForRowAt row =>
    have hedit : (vc.editActionsForRowAt currentId row).isSome = (vc.recent row).isSome := by
      unfold editActionsForRowAt
      cases vc.recent row with
      | none => rfl
      | some recent => rfl
    rw [Option.isSome_map, hedit]
    exact recent_isSome_iff hI (hshows row rfl)
  | deleteAction row => exact deleteAction_isSome_iff hI (hshows row rfl)

variable (contains currentId)

/-- For any snapshots, searches, taps and swipes: every access to the two arrays is in
range exactly when, outside a search, no shown row is used while the list is empty, as it
is after an empty snapshot, and in a search Delete is pressed only on rows whose number is
smaller than the length of the whole list. -/
theorem accesses_in_range_iff (actions : List ChatsAction) :
    Runs.Attempted (step contains currentId) (InRange contains currentId) init actions ↔
      Runs.Attempted (step contains currentId) ListHasRows init actions :=
  Runs.attempted_iff_of_always (consistent_always actions) fun _ _ hI => inRange_iff hI

instance (vc : ChatsViewController) : (a : ChatsAction) → Decidable (vc.ListHasRows a)
  | .loadRecentChats _ | .updateSearchResults _ | .muteAction _ => isTrue fun _ => trivial
  | .cellForRowAt row | .didSelectRowAt row | .didTapAvatarImage row | .editActionsForRowAt row =>
    inferInstanceAs (Decidable (vc.Shows (.cellForRowAt row) →
      vc.isSearching = false → vc.recentChats ≠ []))
  | .deleteAction row => inferInstanceAs (Decidable (vc.Shows (.deleteAction row) →
      if vc.isSearching then row < vc.recentChats.length else vc.recentChats ≠ []))

def chatWith (recentId : ℕ) (name : String) : Recent where
  recentId := recentId
  userId := some "alice"
  chatRoomId := "alice" ++ name
  members := ["alice", name]
  membersToPush := ["alice", name]
  withUserFullName := name
  withUserUserID := some name
  lastMessage := "hi"
  counter := 0
  date := "20190204120000"
  type := .kPRIVATE
  avatar := ""

/-- The only chat is deleted on another device, and its row, which is still shown, is
tapped.  And of two chats found in a search the first is deleted, then the second. -/
theorem access_out_of_range :
    Runs.exec (step (fun _ _ => true) "alice") init
      [.loadRecentChats [chatWith 0 "boris"], .loadRecentChats []] = some ⟨[], [], none, 1⟩ ∧
    recent ⟨[], [], none, 1⟩ 0 = none ∧
    ¬ Runs.Attempted (step (fun _ _ => true) "alice") (InRange (fun _ _ => true) "alice") init
      [.loadRecentChats [chatWith 0 "boris"], .loadRecentChats [], .didSelectRowAt 0] ∧
    ¬ Runs.Attempted (step (fun _ _ => true) "alice") (InRange (fun _ _ => true) "alice") init
      [.loadRecentChats [chatWith 0 "boris", chatWith 1 "bella"], .updateSearchResults (some "b"),
        .editActionsForRowAt 0, .deleteAction 0, .editActionsForRowAt 1, .deleteAction 1] := by
  refine ⟨by decide +kernel, rfl, ?_, ?_⟩
  · exact mt (Runs.attempted_iff_of_always (consistent_always _) fun _ _ hI => inRange_iff hI).mp
      (by decide +kernel)
  · exact mt (Runs.attempted_iff_of_always (consistent_always _) fun _ _ hI => inRange_iff hI).mp
      (by decide +kernel)

end ChatsViewController

end LiChat
