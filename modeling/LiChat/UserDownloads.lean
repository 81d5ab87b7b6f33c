import LiChat.General.FanIn
import LiChat.Session

/-!
# Downloading several users

`getUsersFromFirestore` asks for one User document after the other and collects the users
in the callbacks, which come in any order.  The list of blocked users and the title of a
chat are filled from its completion.
-/

namespace LiChat
open FanIn

/-- A snapshot; `data` is `none` when the document does not exist. -/
structure DocumentSnapshot where
  data : Option Dictionary

/-- The callback for the document of `userId`.  A failed request has no snapshot. -/
structure Arrival where
  userId : Uid
  clock : Clock
  snapshot : Option DocumentSnapshot

namespace Arrival

def user (a : Arrival) (data : Dictionary) : Option FUser :=
  FUser.ofDictionary a.clock.formatter a.clock.now data

end Arrival

/-- The variables that the callbacks of `getUsersFromFirestore` share. -/
structure UserDownload where
  count : ℕ
  usersArray : List FUser

/-- A callback, with the lists that it calls the completion with. -/
def UserDownload.gotDocument (currentId : Uid) (withIds : List Uid) (v : UserDownload) (a : Arrival) :
    Option (UserDownload × List (List FUser)) :=
  match a.snapshot with
  | none => some (v, [])
  | some snapshot => do
    let (v', partials) ← match snapshot.data with
      | some data => do
        let user ← a.user data
        let usersArray :=
          if user.objectId ≠ currentId then v.usersArray ++ [user] else v.usersArray
        some ((⟨v.count + 1, usersArray⟩ : UserDownload), [])
      | none => some (v, [v.usersArray])
    -- this check is made in both branches
    some (v', partials ++ if v'.count = withIds.length then [v'.usersArray] else [])

/-- The calls of the completion, for callbacks in the order of their arrival. -/
def getUsersFromFirestore (currentId : Uid) (withIds : List Uid) (arrivals : List Arrival) :
    Option (List (List FUser)) :=
  callbacks (UserDownload.gotDocument currentId withIds) ⟨0, []⟩ arrivals

/-- `blockedUserArray`, once the screen has been loaded. -/
def BlockedUsersViewController.loadUsers (currentUser : FUser) (blockedUserArray : List FUser)
    (arrivals : List Arrival) : Option (List FUser) :=
  if currentUser.blockedUsers.length > 0 then do
    let calls ← getUsersFromFirestore currentUser.objectId currentUser.blockedUsers arrivals
    some (calls.foldl (fun _ allBlockedUsers => allBlockedUsers) blockedUserArray)
  else some blockedUserArray

/-- The callbacks for all ids arrive, in some order, with the documents of `users`, which
can be read. -/
structure Arrive (users : Users) (ids : List Uid) (arrivals : List Arrival) : Prop where
  perm : (arrivals.map Arrival.userId).Perm ids
  snapshot : ∀ a ∈ arrivals, a.snapshot = some ⟨(users a.userId).map Subtype.val⟩
  readable : ∀ a ∈ arrivals, ∀ d, users a.userId = some d → (a.user d.1).isSome

/-- The users among `ids`, other than the current one, whose documents exist. -/
def existingOthers (users : Users) (currentId : Uid) (ids : List Uid) : List Uid :=
  ids.filter fun id => id ≠ currentId ∧ (users id).isSome

/-- The list has exactly the existing users among `ids` other than the current one, each as
often as `ids` has it, as their documents describe them. -/
def ListsExisting (users : Users) (currentId : Uid) (ids : List Uid) (list : List FUser) : Prop :=
  (list.map FUser.objectId).Perm (existingOthers users currentId ids) ∧
    ∀ user ∈ list, ∃ (data : Dictionary) (clock : Clock),
      (users user.objectId).map Subtype.val = some data ∧
        FUser.ofDictionary clock.formatter clock.now data = some user

/-- No document is missing, or no other user arrives after the last missing document. -/
def MissingIsLast (users : Users) (currentId : Uid) (arrivals : List Arrival) : Prop :=
  (∀ a ∈ arrivals, (users a.userId).isSome) ∨
    ∃ pre a post, arrivals = pre ++ a :: post ∧ users a.userId = none ∧
      ∀ b ∈ post, b.userId ≠ currentId → users b.userId = none

/-- Some other user arrives before any document is missing. -/
def PartnerFirst (users : Users) (currentId : Uid) (arrivals : List Arrival) : Prop :=
  ∃ pre a post, arrivals = pre ++ a :: post ∧ (a.userId ≠ currentId ∧ (users a.userId).isSome) ∧
    ∀ b ∈ pre, (users b.userId).isSome

def UserDownload.gathering (v : UserDownload) : Gathering FUser := ⟨v.usersArray, v.count⟩

/-- What a callback collects. -/
def answer (users : Users) (currentId : Uid) (a : Arrival) : Option (List FUser) :=
  (users a.userId).map fun d => if a.userId ≠ currentId then (a.user d.1).toList else []

theorem answer_eq_none {users : Users} {currentId : Uid} {a : Arrival} :
    answer users currentId a = none ↔ users a.userId = none := by
  simp [answer]

theorem objectId_of_user {u : Uid} {d : Profile u} {a : Arrival} {user : FUser}
    (h : a.user d.1 = some user) : user.objectId = u :=
  (FUser.owns_of_ofDictionary h).unique d.2

theorem gotDocument_spec {users : Users} {ids : List Uid} {arrivals : List Arrival} {currentId : Uid}
    (h : Arrive users ids arrivals) {a : Arrival} (ha : a ∈ arrivals) {v : UserDownload}
    (hcount : v.gathering.count < ids.length) :
    ∃ v', v.gotDocument currentId ids a =
        some (v', (answered ids.length v.gathering (answer users currentId a)).2) ∧
      v'.gathering = (answered ids.length v.gathering (answer users currentId a)).1 := by
  cases hdocument : users a.userId with
  | none =>
    have hne : v.count ≠ ids.length := Nat.ne_of_lt hcount
    refine ⟨v, ?_, ?_⟩
    · simp [UserDownload.gotDocument, h.snapshot a ha, hdocument, hne, answer, answered,
        UserDownload.gathering]
    · simp [answer, hdocument, answered]
  | some d =>
    obtain ⟨user, huser⟩ := Option.isSome_iff_exists.mp (h.readable a ha d hdocument)
    have hid : user.objectId = a.userId := objectId_of_user huser
    have hanswer : answer users currentId a =
        some (if a.userId ≠ currentId then [user] else []) := by
      simp [answer, hdocument, huser]
    refine ⟨⟨v.count + 1, v.usersArray ++ if a.userId ≠ currentId then [user] else []⟩, ?_, ?_⟩
    · rw [hanswer]
      by_cases hother : a.userId = currentId
      · simp [UserDownload.gotDocument, h.snapshot a ha, hdocument, huser, hid, hother, answered,
          UserDownload.gathering, eq_comm]
      · simp [UserDownload.gotDocument, h.snapshot a ha, hdocument, huser, hid, hother,
          Ne.symm hother, answered, UserDownload.gathering, eq_comm]
    · rw [hanswer]
      rfl

theorem getUsersFromFirestore_eq {users : Users} {ids : List Uid} {arrivals : List Arrival}
    (currentId : Uid) (h : Arrive users ids arrivals) :
    getUsersFromFirestore currentId ids arrivals =
      some (completions arrivals.length ⟨[], 0⟩ (arrivals.map (answer users currentId))) := by
  have hlength : arrivals.length = ids.length := by
    rw [← h.perm.length_eq, List.length_map]
  rw [hlength]
  exact callbacks_eq_completions UserDownload.gathering (answer users currentId)
    (fun v a ha hcount => gotDocument_spec h ha hcount) (by simp [UserDownload.gathering, hlength])

theorem mem_found_answers {users : Users} {currentId : Uid} {arrivals : List Arrival} {user : FUser} :
    user ∈ found (arrivals.map (answer users currentId)) ↔
      ∃ a ∈ arrivals, a.userId ≠ currentId ∧ ∃ d, users a.userId = some d ∧ a.user d.1 = some user := by
  simp only [mem_found, List.mem_map, answer, Option.map_eq_some_iff]
  constructor
  · rintro ⟨items, ⟨a, ha, d, hd, rfl⟩, huser⟩
    by_cases hother : a.userId = currentId
    · simp [hother] at huser
    · exact ⟨a, ha, hother, d, hd, by simpa [hother] using huser⟩
  · rintro ⟨a, ha, hother, d, hd, huser⟩
    exact ⟨_, ⟨a, ha, d, hd, rfl⟩, by simp [hother, huser]⟩

theorem map_objectId_found {users : Users} {currentId : Uid} {arrivals : List Arrival}
    (hreadable : ∀ a ∈ arrivals, ∀ d, users a.userId = some d → (a.user d.1).isSome) :
    (found (arrivals.map (answer users currentId))).map FUser.objectId =
      existingOthers users currentId (arrivals.map Arrival.userId) := by
  induction arrivals with
  | nil => rfl
  | cons a arrivals ih =>
    have ih' := ih fun b hb => hreadable b (List.mem_cons_of_mem a hb)
    rw [existingOthers] at ih' ⊢
    cases hdocument : users a.userId with
    | none => simpa [answer, hdocument] using ih'
    | some d =>
      obtain ⟨user, huser⟩ :=
        Option.isSome_iff_exists.mp (hreadable a List.mem_cons_self d hdocument)
      have hid : user.objectId = a.userId := objectId_of_user huser
      by_cases hother : a.userId = currentId
      · simpa [answer, hdocument, hother] using ih'
      · simpa [answer, hdocument, hother, huser, hid] using ih'

theorem listsExisting_found {users : Users} {currentId : Uid} {ids : List Uid}
    {arrivals : List Arrival} (h : Arrive users ids arrivals) :
    ListsExisting users currentId ids (found (arrivals.map (answer users currentId))) := by
  constructor
  · rw [map_objectId_found h.readable]
    exact h.perm.filter _
  · intro user huser
    obtain ⟨a, -, -, d, hd, hread⟩ := mem_found_answers.mp huser
    refine ⟨d.1, a.clock, ?_, hread⟩
    rw [objectId_of_user hread, hd, Option.map_some]

/-- A list that begins the list of all existing users has them all only when it is that
list. -/
theorem listsExisting_iff_eq {users : Users} {currentId : Uid} {ids : List Uid}
    {arrivals : List Arrival} (h : Arrive users ids arrivals) {list : List FUser}
    (hbegins : list <+: found (arrivals.map (answer users currentId))) :
    ListsExisting users currentId ids list ↔
      list = found (arrivals.map (answer users currentId)) := by
  constructor
  · rintro ⟨hperm, -⟩
    have hlength := (hperm.trans (listsExisting_found h).1.symm).length_eq
    rw [List.length_map, List.length_map] at hlength
    exact hbegins.eq_of_length hlength
  · rintro rfl
    exact listsExisting_found h

theorem found_answers_eq_nil {users : Users} {ids : List Uid} {arrivals : List Arrival}
    {currentId : Uid} (h : Arrive users ids arrivals) {post : List Arrival} (hpost : post ⊆ arrivals) :
    found (post.map (answer users currentId)) = [] ↔
      ∀ b ∈ post, b.userId ≠ currentId → users b.userId = none := by
  constructor
  · intro hnil b hb hother
    by_contra hsome
    obtain ⟨d, hd⟩ := Option.ne_none_iff_exists'.mp hsome
    obtain ⟨user, huser⟩ := Option.isSome_iff_exists.mp (h.readable b (hpost hb) d hd)
    have hmem := mem_found_answers.mpr ⟨b, hb, hother, d, hd, huser⟩
    rw [hnil] at hmem
    cases hmem
  · intro hall
    apply List.eq_nil_iff_forall_not_mem.mpr
    intro user huser
    obtain ⟨b, hb, hother, d, hd, -⟩ := mem_found_answers.mp huser
    rw [hall b hb hother] at hd
    cases hd

theorem none_mem_answers {users : Users} {currentId : Uid} {arrivals : List Arrival} :
    none ∈ arrivals.map (answer users currentId) ↔ ∃ a ∈ arrivals, users a.userId = none := by
  simp [answer_eq_none]

theorem missingIsLast_iff {users : Users} {ids : List Uid} {arrivals : List Arrival}
    {currentId : Uid} (h : Arrive users ids arrivals) :
    (none ∉ arrivals.map (answer users currentId) ∨ ∃ pre post,
        arrivals.map (answer users currentId) = pre ++ none :: post ∧ found post = []) ↔
      MissingIsLast users currentId arrivals := by
  refine or_congr ?_ ⟨?_, ?_⟩
  · rw [none_mem_answers]
    simp [Option.isSome_iff_ne_none]
  · rintro ⟨pre, post, hsplit, hnil⟩
    obtain ⟨pre', rest, rfl, rfl, hrest⟩ := List.map_eq_append_iff.mp hsplit
    obtain ⟨a, post', rfl, ha, rfl⟩ := List.map_eq_cons_iff.mp hrest
    refine ⟨pre', a, post', rfl, answer_eq_none.mp ha, ?_⟩
    exact (found_answers_eq_nil h fun b hb => by simp [hb]).mp hnil
  · rintro ⟨pre, a, post, rfl, ha, hpost⟩
    refine ⟨pre.map (answer users currentId), post.map (answer users currentId), ?_, ?_⟩
    · simp [answer_eq_none.mpr ha]
    · exact (found_answers_eq_nil h fun b hb => by simp [hb]).mpr hpost

/-- The last call of the completion lists all existing users exactly when a missing
document, if there is one, comes last. -/
theorem getUsersFromFirestore_last {users : Users} {ids : List Uid} {arrivals : List Arrival}
    {currentId : Uid} (hne : ids ≠ []) (h : Arrive users ids arrivals) :
    ∃ calls list, getUsersFromFirestore currentId ids arrivals = some calls ∧
      calls.getLast? = some list ∧
      (ListsExisting users currentId ids list ↔ MissingIsLast users currentId arrivals) := by
  have harrivals : arrivals.map (answer users currentId) ≠ [] := by
    intro hnil
    have hperm := h.perm
    rw [List.map_eq_nil_iff.mp hnil] at hperm
    exact hne hperm.symm.eq_nil
  obtain ⟨list, hlast, hbegins, hiff⟩ := last_completion harrivals
  rw [List.length_map] at hlast
  refine ⟨_, list, getUsersFromFirestore_eq currentId h, hlast, ?_⟩
  rw [listsExisting_iff_eq h hbegins, hiff, missingIsLast_iff h]

theorem foldl_last {α : Type} (calls : List α) (shown : α) :
    calls.foldl (fun _ list => list) shown = calls.getLast?.getD shown := by
  induction calls using List.reverseRecOn with
  | nil => rfl
  | append_singleton calls list => simp

theorem partnerFirst_iff {users : Users} {ids : List Uid} {arrivals : List Arrival}
    {currentId : Uid} (h : Arrive users ids arrivals) :
    (∃ pre items post, arrivals.map (answer users currentId) = pre ++ some items :: post ∧
        items ≠ [] ∧ none ∉ pre) ↔
      PartnerFirst users currentId arrivals := by
  constructor
  · rintro ⟨pre, items, post, hsplit, hitems, hnone⟩
    obtain ⟨pre', rest, rfl, rfl, hrest⟩ := List.map_eq_append_iff.mp hsplit
    obtain ⟨a, post', rfl, ha, rfl⟩ := List.map_eq_cons_iff.mp hrest
    obtain ⟨d, hd, rfl⟩ := Option.map_eq_some_iff.mp ha
    refine ⟨pre', a, post', rfl, ⟨fun hother => hitems (by simp [hother]), by simp [hd]⟩, ?_⟩
    intro b hb
    by_contra hmissing
    exact hnone (none_mem_answers.mpr ⟨b, hb, by simpa using hmissing⟩)
  · rintro ⟨pre, a, post, rfl, ⟨hother, hsome⟩, hpre⟩
    obtain ⟨d, hd⟩ := Option.isSome_iff_exists.mp hsome
    obtain ⟨user, huser⟩ := Option.isSome_iff_exists.mp (h.readable a (by simp) d hd)
    refine ⟨pre.map (answer users currentId), [user], post.map (answer users currentId), ?_, by simp,
      ?_⟩
    · simp [answer, hd, hother, huser]
    · rw [none_mem_answers]
      rintro ⟨b, hb, hmissing⟩
      have hb' := hpre b hb
      rw [hmissing] at hb'
      cases hb'

/-- A user of whom nothing is known but the push id. -/
def profileNamed (u : Uid) : Profile u :=
  ⟨Dictionary.ofList [(kOBJECTID, .string u), (kPUSHID, .string ("device of " ++ u))], rfl⟩

def usersNamed (ids : List Uid) : Users := fun u => if u ∈ ids then some (profileNamed u) else none

/-- The callbacks for the documents of `users`, in the given order. -/
def arrivalsOf (users : Users) (order : List Uid) : List Arrival :=
  order.map fun id => ⟨id, ⟨dateFormatter 0, 0⟩, some ⟨(users id).map Subtype.val⟩⟩

theorem arrive_arrivalsOf {named ids order : List Uid} (h : order.Perm ids) :
    Arrive (usersNamed named) ids (arrivalsOf (usersNamed named) order) where
  perm := by simpa [arrivalsOf, Function.comp_def] using h
  snapshot a ha := by
    obtain ⟨id, -, rfl⟩ := List.mem_map.mp ha
    rfl
  readable a ha d hd := by
    obtain ⟨id, -, rfl⟩ := List.mem_map.mp ha
    simp only [usersNamed, Option.ite_none_right_eq_some] at hd
    obtain rfl := Option.some.inj hd.2
    rfl

/-- Ann has blocked bea, carl and dan, whose document has been deleted. -/
def annBlocksThree : FUser :=
  { FUser.make "ann" none 0 0 "" "Ann" "Lee" "" "email" "" "" "" with
    blockedUsers := ["bea", "carl", "dan"] }

end LiChat
