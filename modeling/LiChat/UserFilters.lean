import LiChat.General.Histories
import LiChat.General.Runs
import LiChat.UserSections
import Mathlib.Data.List.Sort

/-!
# The users of a city, of a country, or all

A segmented control chooses which users two screens list.  Every choice issues a query, and
every answer replaces the whole list, in the order in which the answers arrive.
-/

namespace LiChat
open Histories

/-- The segments, and the argument of `loadUsers`. -/
inductive UserFilter where
  | kCITY
  | kCOUNTRY
  | all
  deriving DecidableEq, Repr

/-- What the query returns when the collection holds `users`. -/
def UserFilter.query (currentUser : FUser) (filter : UserFilter) (users : List FUser) : List FUser :=
  let found : List FUser :=
    match filter with
    | kCITY => users.filter fun user => user.city = currentUser.city
    | kCOUNTRY => users.filter fun user => user.country = currentUser.country
    | all => users
  found.insertionSort fun (user user' : FUser) => user.firstname ≤ user'.firstname

structure UserList where
  allUsers : List FUser
  sections : UserSections

namespace UserList

def empty : UserList := ⟨[], UserSections.empty⟩

def others (currentId : Uid) (snapshot : List FUser) : List FUser :=
  snapshot.filter fun fUser => fUser.objectId ≠ currentId

def splitDataIntoSections (firstCharString : String → String) (list : UserList) : UserList :=
  { list with
    sections := UserSections.split (fun titles title => titles ++ [title]) firstCharString ""
      list.sections list.allUsers }

/-- The callback of `loadUsers`; all three collections are emptied first. -/
def ofSnapshot (firstCharString : String → String) (currentId : Uid) (snapshot : List FUser) : UserList :=
  if snapshot.isEmpty then empty
  else splitDataIntoSections firstCharString { empty with allUsers := others currentId snapshot }

/-- The lists of two answers are the same exactly if the answers have the same other
users. -/
theorem ofSnapshot_inj {firstCharString : String → String} {currentId : Uid}
    {snapshot snapshot' : List FUser} :
    ofSnapshot firstCharString currentId snapshot = ofSnapshot firstCharString currentId snapshot' ↔
      others currentId snapshot = others currentId snapshot' := by
  have hof : ∀ l, ofSnapshot firstCharString currentId l =
      splitDataIntoSections firstCharString { empty with allUsers := others currentId l } := by
    intro l
    cases l with
    | nil => rfl
    | cons user l => rfl
  rw [hof, hof]
  constructor
  · intro h
    exact congrArg allUsers h
  · intro h
    rw [h]

end UserList

/-- A query that `loadUsers` has issued, and what it has returned. -/
structure LoadUsers where
  filter : UserFilter
  snapshot : Option (List FUser)
  deriving DecidableEq, Repr

/-- The list, the selected segment, the queries in the order of issue, and the answer that
has arrived last. -/
structure UserFilters where
  list : UserList
  segment : UserFilter
  calls : List LoadUsers
  last : Option (List FUser)

/-- `viewAppears` is `viewDidLoad` of one screen and `viewWillAppear` of the other. -/
inductive UserFiltersAction where
  | viewAppears
  | filterSegmentValueChanged (segment : UserFilter)
  | getDocuments (n : ℕ) (users : List FUser)

namespace UserFilters

/-- In both screens the first segment is selected at first. -/
def init : UserFilters := ⟨UserList.empty, .kCITY, [], none⟩

def loadUsers (filter : UserFilter) (w : UserFilters) : UserFilters :=
  { w with calls := w.calls ++ [⟨filter, none⟩] }

variable (firstCharString : String → String) (currentUser : FUser)

def step (w : UserFilters) : UserFiltersAction → Option UserFilters
  | .viewAppears => some (w.loadUsers .kCITY)
  | .filterSegmentValueChanged segment => some ({ w with segment := segment }.loadUsers segment)
  | .getDocuments n users => do
    let call ← w.calls[n]?
    if call.snapshot = none then
      let snapshot := call.filter.query currentUser users
      some { w with
        list := UserList.ofSnapshot firstCharString currentUser.objectId snapshot
        calls := w.calls.set n { call with snapshot := some snapshot }
        last := some snapshot }
    else none

def chosen (w : UserFilters) : Option LoadUsers := latest (fun call => call.filter = w.segment) w.calls

def AllArrived (w : UserFilters) : Prop := ∀ call ∈ w.calls, call.snapshot.isSome

/-- The list is that of the answer that has arrived last, and some query was for the
selected segment, once any has been issued. -/
structure Filtered (w : UserFilters) : Prop where
  list : ∀ snapshot ∈ w.last,
    w.list = UserList.ofSnapshot firstCharString currentUser.objectId snapshot
  last : ∀ call ∈ w.calls, call.snapshot.isSome → w.last.isSome
  segment : (w.calls = [] ∧ w.segment = .kCITY) ∨ ∃ call ∈ w.calls, call.filter = w.segment

variable {firstCharString currentUser}

theorem filtered_init : Filtered firstCharString currentUser init where
  list := by rintro _ ⟨⟩
  last := by rintro _ ⟨⟩
  segment := Or.inl ⟨rfl, rfl⟩

theorem filtered_loadUsers {w : UserFilters} {filter : UserFilter}
    (hlist : ∀ snapshot ∈ w.last,
      w.list = UserList.ofSnapshot firstCharString currentUser.objectId snapshot)
    (hlast : ∀ call ∈ w.calls, call.snapshot.isSome → w.last.isSome)
    (hsegment : filter = w.segment ∨ ∃ call ∈ w.calls, call.filter = w.segment) :
    Filtered firstCharString currentUser (w.loadUsers filter) where
  list := hlist
  last call hcall hsome := by
    rcases List.mem_append.mp hcall with hold | hnew
    · exact hlast call hold hsome
    · rw [List.mem_singleton.mp hnew] at hsome
      exact absurd hsome Bool.false_ne_true
  segment := by
    refine Or.inr ?_
    rcases hsegment with hfilter | ⟨call, hcall, hfilter⟩
    · exact ⟨⟨filter, none⟩, List.mem_append_right _ List.mem_cons_self, hfilter⟩
    · exact ⟨call, List.mem_append_left _ hcall, hfilter⟩

theorem filtered_step {w w' : UserFilters} {a : UserFiltersAction}
    (hI : Filtered firstCharString currentUser w) (h : step firstCharString currentUser w a = some w') :
    Filtered firstCharString currentUser w' := by
  cases a with
  | viewAppears =>
    obtain rfl := Option.some.inj h
    exact filtered_loadUsers hI.list hI.last (hI.segment.imp_left fun h => h.2.symm)
  | filterSegmentValueChanged segment =>
    obtain rfl := Option.some.inj h
    exact filtered_loadUsers hI.list hI.last (Or.inl rfl)
  | getDocuments n users =>
    obtain ⟨call, hcall, h⟩ := Option.bind_eq_some_iff.mp h
    simp only [Option.ite_none_right_eq_some, Option.some.injEq] at h
    obtain ⟨-, rfl⟩ := h
    refine ⟨?_, fun _ _ _ => rfl, ?_⟩
    · rintro _ ⟨⟩
      rfl
    · rcases hI.segment with ⟨hempty, -⟩ | ⟨call', hcall', hfilter⟩
      · simp [hempty] at hcall
      · -- the filters of the queries stay as they are
        have hfilters : (w.calls.set n { call with
            snapshot := some (call.filter.query currentUser users) }).map LoadUsers.filter =
              w.calls.map LoadUsers.filter := map_set_of_same hcall rfl
        obtain ⟨call'', hcall'', hfilter''⟩ := List.mem_map.mp
          (hfilters ▸ List.mem_map_of_mem (f := LoadUsers.filter) hcall')
        exact Or.inr ⟨call'', hcall'', hfilter''.trans hfilter⟩

theorem filtered_reached {w : UserFilters} {actions : List UserFiltersAction}
    (hrun : Runs.exec (step firstCharString currentUser) init actions = some w) :
    Filtered firstCharString currentUser w :=
  (Runs.always_of_step (fun _ _ _ hI hstep => filtered_step hI hstep) filtered_init
    actions).last hrun

/-- Once all queries have been answered there are an answer for the segment chosen last
and an answer that has arrived last. -/
theorem exists_answers {w : UserFilters} (hI : Filtered firstCharString currentUser w)
    (hissued : w.calls ≠ []) (harrived : w.AllArrived) :
    ∃ call snapshot last, w.chosen = some call ∧ call.snapshot = some snapshot ∧ w.last = some last := by
  obtain ⟨hempty, -⟩ | ⟨call', hcall', hfilter⟩ := hI.segment
  · exact absurd hempty hissued
  · obtain ⟨call, hchosen⟩ : ∃ call, w.chosen = some call := by
      cases hchosen : w.chosen with
      | none => exact absurd (by simpa using hfilter) (latest_eq_none.mp hchosen call' hcall')
      | some call => exact ⟨call, rfl⟩
    have hcall : call ∈ w.calls := (mem_of_latest hchosen).1
    obtain ⟨snapshot, hsnapshot⟩ := Option.isSome_iff_exists.mp (harrived call hcall)
    obtain ⟨last, hlast⟩ := Option.isSome_iff_exists.mp (hI.last call hcall (harrived call hcall))
    exact ⟨call, snapshot, last, hchosen, hsnapshot, hlast⟩

/-- However often the segment is changed and in whatever order the answers arrive: once all
have arrived, the users, the titles and the sections are those of the query for the
segment chosen last exactly when the answer that has arrived last has the same users as
the answer of that query. -/
theorem user_list_of_last_segment_iff (firstCharString : String → String) (currentUser : FUser)
    (actions : List UserFiltersAction) (w : UserFilters)
    (hrun : Runs.exec (step firstCharString currentUser) init actions = some w)
    (hissued : w.calls ≠ []) (harrived : w.AllArrived) :
    ∃ call snapshot last, w.chosen = some call ∧ call.snapshot = some snapshot ∧ w.last = some last ∧
      (w.list = UserList.ofSnapshot firstCharString currentUser.objectId snapshot ↔
        UserList.others currentUser.objectId last = UserList.others currentUser.objectId snapshot) := by
  have hI := filtered_reached hrun
  obtain ⟨call, snapshot, last, hchosen, hsnapshot, hlast⟩ := exists_answers hI hissued harrived
  refine ⟨call, snapshot, last, hchosen, hsnapshot, hlast, ?_⟩
  rw [hI.list last hlast]
  exact UserList.ofSnapshot_inj

def usersOfKorea : List FUser :=
  [FUser.make "alice" none 0 0 "" "Alice" "" "" "" "" "Seoul" "Korea",
    FUser.make "boris" none 0 0 "" "Boris" "" "" "" "" "Busan" "Korea"]

def aliceOfSeoul : FUser := FUser.make "alice" none 0 0 "" "Alice" "" "" "" "" "Seoul" "Korea"

/-- The list appears with the users of the city, the country is chosen, and two answers
arrive. -/
def cityThenCountry (first second : ℕ) : List UserFiltersAction :=
  [.viewAppears, .filterSegmentValueChanged .kCOUNTRY, .getDocuments first usersOfKorea,
    .getDocuments second usersOfKorea]

theorem user_list_of_last_segment_in_order :
    ∃ w, Runs.exec (step (fun _ => "B") aliceOfSeoul) init (cityThenCountry 0 1) = some w ∧
      ∃ call snapshot last, w.chosen = some call ∧ call.snapshot = some snapshot ∧
        w.last = some last ∧
        (w.list = UserList.ofSnapshot (fun _ => "B") "alice" snapshot ↔
          UserList.others "alice" last = UserList.others "alice" snapshot) := by
  refine ⟨_, rfl, user_list_of_last_segment_iff (fun _ => "B") aliceOfSeoul
    (cityThenCountry 0 1) _ rfl ?_ ?_⟩
  · exact List.cons_ne_nil _ _
  · unfold AllArrived
    decide

/-- The answer for the country arrives before the one for the city: the country is
selected, but the list is empty. -/
theorem user_list_of_earlier_segment :
    ∃ w call snapshot,
      Runs.exec (step (fun _ => "B") aliceOfSeoul) init (cityThenCountry 1 0) = some w ∧
      w.AllArrived ∧ w.segment = .kCOUNTRY ∧ w.chosen = some call ∧ call.snapshot = some snapshot ∧
      w.list.allUsers = [] ∧
      (UserList.ofSnapshot (fun _ => "B") "alice" snapshot).allUsers.map FUser.objectId = ["boris"] ∧
      w.list ≠ UserList.ofSnapshot (fun _ => "B") "alice" snapshot := by
  refine ⟨_, _, _, rfl, by unfold AllArrived; decide, rfl, rfl, rfl, rfl, rfl, fun h => ?_⟩
  exact absurd (congrArg UserList.allUsers h) (by decide)

end UserFilters

end LiChat
