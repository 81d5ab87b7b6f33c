import LiChat.ChatList
import LiChat.General.Rows

/-!
# Deleting a chat

Delete in a swiped row deletes the Recent that the row shows and removes a row from the
list of chats.
-/

namespace LiChat
open Rows

namespace ChatsViewController

/-- The list and the store after the row has been swiped and Delete has been pressed. -/
def deleteRow (currentId : Uid) (row : ℕ) (vc : ChatsViewController) (store : Recents) :
    Option (ChatsViewController × Recents) := do
  let (tempRecent, _) ← vc.editActionsForRowAt currentId row
  let vc' ← vc.deleteAction row
  some (vc', store.apply (.delete tempRecent.recentId))

/-- The shown Recent, and nothing else, is gone from the store and from the list. -/
def DeletesShown (currentId : Uid) (row : ℕ) (vc : ChatsViewController) (store : Recents) : Prop :=
  ∃ shown vc' store', vc.recent row = some shown ∧
    vc.deleteRow currentId row store = some (vc', store') ∧
    store'.all = store.all.filter (fun r => r.recentId ≠ shown.recentId) ∧
    vc'.recentChats = vc.recentChats.filter fun r => r.recentId ≠ shown.recentId

theorem deletesShown_iff {currentId : Uid} {row : ℕ} {vc : ChatsViewController} {store : Recents}
    {shown : Recent} (hdistinct : (vc.recentChats.map Recent.recentId).Nodup)
    (hshown : vc.recent row = some shown) (hmem : shown ∈ vc.recentChats)
    (hrow : row < vc.recentChats.length) :
    vc.DeletesShown currentId row store ↔ vc.recentChats[row]? = some shown := by
  have hdelete : vc.deleteRow currentId row store =
      some ({ vc with recentChats := vc.recentChats.eraseIdx row }.reloadData,
        store.apply (.delete shown.recentId)) := by
    simp [deleteRow, editActionsForRowAt, hshown, deleteAction, hrow]
  have hremoves : vc.DeletesShown currentId row store ↔
      vc.recentChats.eraseIdx row = vc.recentChats.filter fun r => r.recentId ≠ shown.recentId := by
    constructor
    · rintro ⟨shown', vc', store', hshown', hdelete', -, hlist⟩
      obtain rfl := Option.some.inj (hshown.symm.trans hshown')
      obtain ⟨rfl, rfl⟩ := Prod.mk.inj (Option.some.inj (hdelete.symm.trans hdelete'))
      exact hlist
    · intro hlist
      exact ⟨shown, _, _, hshown, hdelete, Recents.all_delete, hlist⟩
  rw [hremoves]
  constructor
  · intro hlist
    -- what is removed has the id of the shown Recent
    obtain ⟨removed, hremoved⟩ : ∃ removed, vc.recentChats[row]? = some removed :=
      ⟨_, List.getElem?_eq_getElem hrow⟩
    rw [eraseIdx_eq_filter hdistinct hremoved] at hlist
    have hnot : shown ∉ vc.recentChats.filter fun r => r.recentId ≠ removed.recentId := by
      rw [hlist]
      simp
    have hid : shown.recentId = removed.recentId := by
      by_contra hne
      exact hnot (List.mem_filter.mpr ⟨hmem, by simpa using hne⟩)
    rw [hremoved, List.inj_on_of_nodup_map hdistinct hmem (List.mem_of_getElem? hremoved) hid]
  · exact eraseIdx_eq_filter hdistinct

/-- For all chats with distinct kRECENTIDs, whatever is searched for: Delete on a displayed
row deletes the Recent of the row from the store and removes it, and nothing else, from the
list exactly when there is no search or all chats up to that row are found. -/
theorem delete_deletes_shown_iff (contains : String → String → Bool) (currentId : Uid)
    (recentChats : List Recent) (hdistinct : (recentChats.map Recent.recentId).Nodup)
    (searchText : Option String) (row : ℕ)
    (hrow : row < (updateSearchResults contains searchText
      { init with recentChats := recentChats }).numberOfRowsInSection) (store : Recents) :
    DeletesShown currentId row
        (updateSearchResults contains searchText { init with recentChats := recentChats }) store ↔
      ((updateSearchResults contains searchText { init with recentChats := recentChats }).isSearching →
        ∀ recentChat ∈ recentChats.take (row + 1),
          contains recentChat.withUserFullName (searchText.getD "")) := by
  set vc := updateSearchResults contains searchText { init with recentChats := recentChats } with hvc
  have hlist : vc.recentChats = recentChats := rfl
  have hfiltered : vc.filteredChats =
    recentChats.filter fun recentChat => contains recentChat.withUserFullName (searchText.getD "") := rfl
  have hnodup : recentChats.Nodup := List.Nodup.of_map _ hdistinct
  unfold numberOfRowsInSection at hrow
  by_cases hsearch : vc.isSearching
  · rw [if_pos hsearch, hfiltered] at hrow
    have hrow' : row < vc.recentChats.length := hrow.trans_le (List.length_filter_le _ _)
    obtain ⟨shown, hshown⟩ : ∃ shown, (recentChats.filter fun recentChat =>
        contains recentChat.withUserFullName (searchText.getD ""))[row]? = some shown :=
      ⟨_, List.getElem?_eq_getElem hrow⟩
    have hrecent : vc.recent row = some shown := by
      rw [recent, if_pos hsearch, hfiltered, hshown]
    have hmem := List.mem_of_mem_filter (List.mem_of_getElem? hshown)
    rw [deletesShown_iff hdistinct hrecent hmem hrow', hlist, filter_getElem?_iff hnodup hshown]
    simp [hsearch]
  · rw [if_neg hsearch] at hrow
    obtain ⟨shown, hshown⟩ : ∃ shown, vc.recentChats[row]? = some shown :=
      ⟨_, List.getElem?_eq_getElem hrow⟩
    have hrecent : vc.recent row = some shown := (if_neg hsearch).trans hshown
    rw [deletesShown_iff hdistinct hrecent (List.mem_of_getElem? hshown) hrow]
    exact iff_of_true hshown fun h => absurd h hsearch

def namesBeginning (name text : String) : Bool := text.toList.isPrefixOf name.toList

def annAndBoris : List Recent := [chatWith 0 "ann", chatWith 1 "boris"]

def storeOfBoth : Recents :=
  (Recents.empty.apply (.setData (fun id => chatWith id "ann") fun _ => rfl)).apply
    (.setData (fun id => chatWith id "boris") fun _ => rfl)

theorem delete_deletes_shown_none_and_a :
    DeletesShown "alice" 1 (updateSearchResults namesBeginning none
      { init with recentChats := annAndBoris }) storeOfBoth ∧
    DeletesShown "alice" 0 (updateSearchResults namesBeginning (some "a")
      { init with recentChats := annAndBoris }) storeOfBoth := by
  refine ⟨(delete_deletes_shown_iff namesBeginning "alice" annAndBoris (by decide) none 1
    (by decide) storeOfBoth).mpr fun h => absurd h Bool.false_ne_true,
    (delete_deletes_shown_iff namesBeginning "alice" annAndBoris (by decide) (some "a") 0
    (by decide +kernel) storeOfBoth).mpr fun _ => ?_⟩
  decide +kernel

/-- A search for "b" shows Boris in the first row; Delete deletes his chat from the store
and removes Ann's from the list. -/
theorem delete_removes_other_chat :
    (annAndBoris.map Recent.recentId).Nodup ∧ storeOfBoth.all = annAndBoris ∧
    (updateSearchResults namesBeginning (some "b")
      { init with recentChats := annAndBoris }).recent 0 = some (chatWith 1 "boris") ∧
    (∃ vc' store', deleteRow "alice" 0 (updateSearchResults namesBeginning (some "b")
        { init with recentChats := annAndBoris }) storeOfBoth = some (vc', store') ∧
      store'.all = [chatWith 0 "ann"] ∧ vc'.recentChats = [chatWith 1 "boris"]) ∧
    ¬ DeletesShown "alice" 0 (updateSearchResults namesBeginning (some "b")
      { init with recentChats := annAndBoris }) storeOfBoth := by
  have hshown : (updateSearchResults namesBeginning (some "b")
      { init with recentChats := annAndBoris }).recent 0 = some (chatWith 1 "boris") := by
    decide +kernel
  refine ⟨by decide, by decide, hshown, ⟨_, _, rfl, by decide +kernel, by decide +kernel⟩, fun h => ?_⟩
  exact absurd ((deletesShown_iff (by decide) hshown (by decide) (by decide)).mp h) (by decide)

end ChatsViewController

end LiChat
