import LiChat.UserDownloads

/-!
# Push notifications

Every call of the completion of `getMembersToPush` posts one notification.
-/

namespace LiChat
open FanIn

structure Notification where
  contents : String
  iosBadgeType : String
  iosBadgeCount : String
  includePlayerIds : List String

def removeCurrentUserFromMembersArray (currentId : Uid) (members : List Uid) : List Uid :=
  members.filter (· ≠ currentId)

/-- The variables that the callbacks of `getMembersToPush` share. -/
structure PushDownload where
  pushIds : List String
  count : ℕ

/-- A callback, with the lists that it calls the completion with.  It traps for a user
without a push id. -/
def PushDownload.gotDocument (members : List Uid) (v : PushDownload) (a : Arrival) :
    Option (PushDownload × List (List String)) :=
  match a.snapshot with
  | none => some (v, [v.pushIds])
  | some snapshot =>
    match snapshot.data with
    | some data => do
      let fUser ← a.user data
      let pushId ← fUser.pushId
      let v' : PushDownload := ⟨v.pushIds ++ [pushId], v.count + 1⟩
      some (v', if members.length = v'.count then [v'.pushIds] else [])
    | none => some (v, [v.pushIds])

/-- The calls of the completion, for callbacks in the order of their arrival. -/
def getMembersToPush (members : List Uid) (arrivals : List Arrival) : Option (List (List String)) :=
  callbacks (PushDownload.gotDocument members) ⟨[], 0⟩ arrivals

def sendPushNotification (currentUser : FUser) (memberToPush : List Uid) (message : String)
    (arrivals : List Arrival) : Option (List Notification) := do
  let updatedMembers := removeCurrentUserFromMembersArray currentUser.objectId memberToPush
  let calls ← getMembersToPush updatedMembers arrivals
  some <| calls.map fun userPushIds =>
    ⟨currentUser.fullname ++ " \n " ++ message, "Increase", "1", userPushIds⟩

def pushIdOf (users : Users) (u : Uid) : Option String :=
  (users u).bind fun d => (d.1 kPUSHID).bind Value.asString

/-- Over all notifications the push id of every existing member other than the current user
is included exactly once, and no other id is. -/
def OncePerRecipient (users : Users) (currentId : Uid) (memberToPush : List Uid)
    (posts : List Notification) : Prop :=
  ∀ playerId, (posts.flatMap Notification.includePlayerIds).count playerId =
    if ∃ u ∈ memberToPush, u ≠ currentId ∧ pushIdOf users u = some playerId then 1 else 0

/-- No document is missing, or every one, or those that exist arrive one after the other,
right before the last one, which is missing. -/
def OneMissingAfter (users : Users) (arrivals : List Arrival) : Prop :=
  (∀ a ∈ arrivals, (users a.userId).isSome) ∨ (∀ a ∈ arrivals, users a.userId = none) ∨
    ∃ front block last, arrivals = front ++ (block ++ [last]) ∧
      (∀ a ∈ front, users a.userId = none) ∧ (∀ a ∈ block, (users a.userId).isSome) ∧
      users last.userId = none

def PushDownload.gathering (v : PushDownload) : Gathering String := ⟨v.pushIds, v.count⟩

/-- What a callback collects. -/
def pushAnswer (users : Users) (a : Arrival) : Option (List String) :=
  (users a.userId).map fun _ => (pushIdOf users a.userId).toList

theorem pushAnswer_eq_none {users : Users} {a : Arrival} :
    pushAnswer users a = none ↔ users a.userId = none := by
  simp [pushAnswer]

theorem pushAnswer_ne_none {users : Users} {a : Arrival} :
    pushAnswer users a ≠ none ↔ (users a.userId).isSome := by
  rw [Option.isSome_iff_ne_none, Ne, pushAnswer_eq_none]

theorem pushId_of_ofDictionary {f : DateFormatter} {now : Date} {d : Dictionary} {user : FUser}
    (h : FUser.ofDictionary f now d = some user) :
    user.pushId = (d kPUSHID).bind Value.asString := by
  obtain ⟨_, -, h⟩ := Option.bind_eq_some_iff.mp h
  -- the id and the other fourteen fields
  iterate 15 obtain ⟨_, -, h⟩ := Option.bind_eq_some_iff.mp h
  obtain rfl := Option.some.inj h
  rfl

theorem pushGotDocument_spec {users : Users} {members : List Uid} {arrivals : List Arrival}
    (h : Arrive users members arrivals)
    (hreach : ∀ u ∈ members, (users u).isSome → (pushIdOf users u).isSome) {a : Arrival}
    (ha : a ∈ arrivals) (v : PushDownload) :
    ∃ v', v.gotDocument members a =
        some (v', (answered members.length v.gathering (pushAnswer users a)).2) ∧
      v'.gathering = (answered members.length v.gathering (pushAnswer users a)).1 := by
  cases hdocument : users a.userId with
  | none =>
    refine ⟨v, ?_, ?_⟩
    · simp [PushDownload.gotDocument, h.snapshot a ha, hdocument, pushAnswer, answered,
        PushDownload.gathering]
    · simp [pushAnswer, hdocument, answered]
  | some d =>
    obtain ⟨user, huser⟩ := Option.isSome_iff_exists.mp (h.readable a ha d hdocument)
    have hmember : a.userId ∈ members := h.perm.subset (List.mem_map_of_mem ha)
    obtain ⟨pushId, hpush⟩ :=
      Option.isSome_iff_exists.mp (hreach a.userId hmember (by rw [hdocument]; rfl))
    have huserPush : user.pushId = some pushId := by
      rw [pushId_of_ofDictionary huser, ← hpush, pushIdOf, hdocument, Option.bind_some]
    refine ⟨⟨v.pushIds ++ [pushId], v.count + 1⟩, ?_, ?_⟩
    · simp [PushDownload.gotDocument, h.snapshot a ha, hdocument, huser, huserPush, pushAnswer, hpush,
        answered, PushDownload.gathering]
      rfl
    · simp [pushAnswer, hdocument, hpush, answered, PushDownload.gathering]

theorem getMembersToPush_eq {users : Users} {members : List Uid} {arrivals : List Arrival}
    (h : Arrive users members arrivals)
    (hreach : ∀ u ∈ members, (users u).isSome → (pushIdOf users u).isSome) :
    getMembersToPush members arrivals =
      some (completions arrivals.length ⟨[], 0⟩ (arrivals.map (pushAnswer users))) := by
  have hlength : arrivals.length = members.length := by
    rw [← h.perm.length_eq, List.length_map]
  rw [hlength]
  exact callbacks_eq_completions PushDownload.gathering (pushAnswer users)
    (fun v a ha _ => pushGotDocument_spec h hreach ha v)
    (by simp [PushDownload.gathering, hlength])

theorem found_pushAnswers (users : Users) (arrivals : List Arrival) :
    found (arrivals.map (pushAnswer users)) =
      (arrivals.map Arrival.userId).filterMap (pushIdOf users) := by
  induction arrivals with
  | nil => rfl
  | cons a arrivals ih =>
    cases hdocument : users a.userId with
    | none => simpa [pushAnswer, pushIdOf, hdocument] using ih
    | some d =>
      cases hpush : pushIdOf users a.userId with
      | none => simpa [pushAnswer, hdocument, hpush] using ih
      | some pushId => simpa [pushAnswer, hdocument, hpush] using ih

theorem oneMissingAfter_iff {users : Users} {arrivals : List Arrival} :
    (none ∉ arrivals.map (pushAnswer users) ∨ (∀ a ∈ arrivals.map (pushAnswer users), a = none) ∨
        ∃ k block, arrivals.map (pushAnswer users) = List.replicate k none ++ (block ++ [none]) ∧
          none ∉ block) ↔
      OneMissingAfter users arrivals := by
  refine or_congr ?_ (or_congr ?_ ⟨?_, ?_⟩)
  · simp [pushAnswer_eq_none, Option.isSome_iff_ne_none]
  · simp [pushAnswer_eq_none]
  · rintro ⟨k, block, hsplit, hblock⟩
    obtain ⟨front, rest, rfl, hfront, hrest⟩ := List.map_eq_append_iff.mp hsplit
    obtain ⟨block', last, rfl, rfl, hlast⟩ := List.map_eq_append_iff.mp hrest
    obtain ⟨a, tail, rfl, ha, htail⟩ := List.map_eq_cons_iff.mp hlast
    obtain rfl := List.map_eq_nil_iff.mp htail
    refine ⟨front, block', a, rfl, fun b hb => ?_, fun b hb => ?_, pushAnswer_eq_none.mp ha⟩
    · have hmem : pushAnswer users b ∈ List.replicate k none := hfront ▸ List.mem_map_of_mem hb
      exact pushAnswer_eq_none.mp (List.eq_of_mem_replicate hmem)
    · exact pushAnswer_ne_none.mp fun hnone => hblock (hnone ▸ List.mem_map_of_mem hb)
  · rintro ⟨front, block, last, rfl, hfront, hblock, hlast⟩
    refine ⟨front.length, block.map (pushAnswer users), ?_, ?_⟩
    · have hreplicate : front.map (pushAnswer users) = List.replicate front.length none := by
        apply List.eq_replicate_iff.mpr
        simpa [pushAnswer_eq_none] using hfront
      simp [hreplicate, pushAnswer_eq_none.mpr hlast]
    · intro hmem
      obtain ⟨b, hb, hnone⟩ := List.mem_map.mp hmem
      exact pushAnswer_ne_none.mpr (hblock b hb) hnone

def recipients (users : Users) (currentId : Uid) (memberToPush : List Uid) : List String :=
  (removeCurrentUserFromMembersArray currentId memberToPush).filterMap (pushIdOf users)

theorem nodup_recipients {users : Users} {currentId : Uid} {memberToPush : List Uid}
    (hnodup : memberToPush.Nodup)
    (hdistinct : ∀ u ∈ memberToPush, ∀ u' ∈ memberToPush, ∀ playerId,
      pushIdOf users u = some playerId → pushIdOf users u' = some playerId → u = u') :
    (recipients users currentId memberToPush).Nodup := by
  refine List.pairwise_filterMap.mpr (List.Pairwise.imp_of_mem ?_ (hnodup.filter (· ≠ currentId)))
  intro u u' hu hu' hne playerId hpush playerId' hpush' hsame
  subst hsame
  have hmember := (List.mem_filter.mp hu).1
  have hmember' := (List.mem_filter.mp hu').1
  exact hne (hdistinct u hmember u' hmember' playerId hpush hpush')

theorem count_recipients {users : Users} {currentId : Uid} {memberToPush : List Uid}
    (hnodup : (recipients users currentId memberToPush).Nodup) (playerId : String) :
    (recipients users currentId memberToPush).count playerId =
      if ∃ u ∈ memberToPush, u ≠ currentId ∧ pushIdOf users u = some playerId then 1 else 0 := by
  rw [hnodup.count]
  congr 1
  simp [recipients, removeCurrentUserFromMembersArray, and_assoc]

/-- For every set of missing documents and every order of the callbacks: the push id of
every existing member other than the current user is included exactly once, and no other
id, exactly when no document is missing, or all are, or the existing ones arrive one after
the other, right before the last one, which is missing. -/
theorem each_recipient_pushed_once_iff (users : Users) (currentUser : FUser)
    (memberToPush : List Uid) (message : String) (arrivals : List Arrival)
    (hnodup : memberToPush.Nodup)
    (harrive : Arrive users (removeCurrentUserFromMembersArray currentUser.objectId memberToPush)
      arrivals)
    (hreach : ∀ u ∈ memberToPush, (users u).isSome → (pushIdOf users u).isSome)
    (hdistinct : ∀ u ∈ memberToPush, ∀ u' ∈ memberToPush, ∀ playerId,
      pushIdOf users u = some playerId → pushIdOf users u' = some playerId → u = u') :
    ∃ posts, sendPushNotification currentUser memberToPush message arrivals = some posts ∧
      (OncePerRecipient users currentUser.objectId memberToPush posts ↔
        OneMissingAfter users arrivals) := by
  have hcalls := getMembersToPush_eq harrive fun u hu => hreach u (List.mem_filter.mp hu).1
  have hposts : sendPushNotification currentUser memberToPush message arrivals =
      some ((completions arrivals.length ⟨[], 0⟩ (arrivals.map (pushAnswer users))).map
        fun userPushIds => ⟨currentUser.fullname ++ " \n " ++ message, "Increase", "1", userPushIds⟩) := by
    rw [sendPushNotification, hcalls]
    rfl
  refine ⟨_, hposts, ?_⟩
  have hrecipients := @nodup_recipients users currentUser.objectId memberToPush hnodup hdistinct
  have hfound : (found (arrivals.map (pushAnswer users))).Perm
      (recipients users currentUser.objectId memberToPush) := by
    rw [found_pushAnswers]
    exact harrive.perm.filterMap _
  have hnonempty : ∀ items, some items ∈ arrivals.map (pushAnswer users) → items ≠ [] := by
    intro items hitems
    obtain ⟨a, ha, hanswer⟩ := List.mem_map.mp hitems
    obtain ⟨d, hd, rfl⟩ := Option.map_eq_some_iff.mp hanswer
    have hmember := (List.mem_filter.mp (harrive.perm.subset (List.mem_map_of_mem ha))).1
    obtain ⟨pushId, hpush⟩ :=
      Option.isSome_iff_exists.mp (hreach a.userId hmember (by rw [hd]; rfl))
    simp [hpush]
  have honce := completed_once_iff hnonempty (hfound.nodup_iff.mpr hrecipients)
  rw [List.length_map] at honce
  rw [← oneMissingAfter_iff, ← honce, hfound.congr_right, List.perm_iff_count]
  unfold OncePerRecipient
  simp only [List.flatMap_map, List.flatMap_id', count_recipients hrecipients]

def annOnline : FUser := FUser.make "ann" none 0 0 "" "Ann" "Lee" "" "email" "" "" ""

def withoutCarl : Users := usersNamed ["ann", "bea", "dan"]

theorem pushIdOf_usersNamed {named : List Uid} {u : Uid} {playerId : String}
    (h : pushIdOf (usersNamed named) u = some playerId) : playerId = "device of " ++ u := by
  obtain ⟨d, hd, hpush⟩ := Option.bind_eq_some_iff.mp h
  simp only [usersNamed, Option.ite_none_right_eq_some] at hd
  obtain rfl := Option.some.inj hd.2
  exact (Option.some.inj hpush).symm

theorem each_recipient_pushed_once_missing_last :
    ∃ posts, sendPushNotification annOnline ["ann", "bea", "carl", "dan"] "hello"
        (arrivalsOf withoutCarl ["bea", "dan", "carl"]) = some posts ∧
      OncePerRecipient withoutCarl "ann" ["ann", "bea", "carl", "dan"] posts := by
  have hlast : OneMissingAfter withoutCarl (arrivalsOf withoutCarl ["bea", "dan", "carl"]) :=
    .inr (.inr ⟨[], arrivalsOf withoutCarl ["bea", "dan"], _, rfl, by simp, by decide, rfl⟩)
  obtain ⟨posts, hposts, hiff⟩ := each_recipient_pushed_once_iff withoutCarl annOnline
    ["ann", "bea", "carl", "dan"] "hello" (arrivalsOf withoutCarl ["bea", "dan", "carl"])
    (by decide) (arrive_arrivalsOf (by decide)) (by decide) (by
      intro u hu u' hu' playerId hpush hpush'
      exact (String.append_right_inj _).mp
        ((pushIdOf_usersNamed hpush).symm.trans (pushIdOf_usersNamed hpush')))
  exact ⟨posts, hposts, hiff.mpr hlast⟩

/-- Carl's missing document arrives before that of dan, who gets no notification. -/
theorem each_recipient_pushed_once_fails_missing_between :
    Arrive withoutCarl (removeCurrentUserFromMembersArray "ann" ["ann", "bea", "carl", "dan"])
        (arrivalsOf withoutCarl ["bea", "carl", "dan"]) ∧
      ∃ posts, sendPushNotification annOnline ["ann", "bea", "carl", "dan"] "hello"
          (arrivalsOf withoutCarl ["bea", "carl", "dan"]) = some posts ∧
        posts.map Notification.includePlayerIds = [["device of bea"]] ∧
        pushIdOf withoutCarl "dan" = some "device of dan" ∧
        ¬ OncePerRecipient withoutCarl "ann" ["ann", "bea", "carl", "dan"] posts := by
  refine ⟨arrive_arrivalsOf (by decide), _, rfl, rfl, rfl, ?_⟩
  intro honce
  exact absurd (honce "device of dan") (by decide)

end LiChat
