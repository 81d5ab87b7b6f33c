import LiChat.General.Documents
import LiChat.User

/-!
# The Recent collection

Every member of a chat room owns a Recent document, the row of that room in the
member's chat list.
-/

namespace LiChat
open Documents

inductive ChatType where
  | kPRIVATE
  | kGROUP
  deriving DecidableEq, Repr

/-- The data of a Recent document.  `withUserUserID` is stored in private chats
only; `userId` is read with an optional cast everywhere. -/
structure Recent where
  recentId : ℕ
  userId : Option Uid
  chatRoomId : String
  members : List Uid
  membersToPush : List Uid
  withUserFullName : String
  withUserUserID : Option Uid
  lastMessage : String
  counter : ℤ
  date : String
  type : ChatType
  avatar : String
  deriving DecidableEq, Repr

/-- The argument of `updateData`: the fields it names. -/
structure RecentValues where
  members : Option (List Uid) := none
  membersToPush : Option (List Uid) := none
  lastMessage : Option String := none
  counter : Option ℤ := none
  date : Option String := none
  withUserFullName : Option String := none
  avatar : Option String := none
  deriving DecidableEq, Repr

def Recent.updateData (values : RecentValues) (r : Recent) : Recent :=
  { r with
    members := values.members.getD r.members
    membersToPush := values.membersToPush.getD r.membersToPush
    lastMessage := values.lastMessage.getD r.lastMessage
    counter := values.counter.getD r.counter
    date := values.date.getD r.date
    withUserFullName := values.withUserFullName.getD r.withUserFullName
    avatar := values.avatar.getD r.avatar }

@[simp] theorem Recent.updateData_recentId (v : RecentValues) (r : Recent) :
    (r.updateData v).recentId = r.recentId := rfl
@[simp] theorem Recent.updateData_userId (v : RecentValues) (r : Recent) :
    (r.updateData v).userId = r.userId := rfl
@[simp] theorem Recent.updateData_chatRoomId (v : RecentValues) (r : Recent) :
    (r.updateData v).chatRoomId = r.chatRoomId := rfl
@[simp] theorem Recent.updateData_type (v : RecentValues) (r : Recent) :
    (r.updateData v).type = r.type := rfl
@[simp] theorem Recent.updateData_members (v : RecentValues) (r : Recent) :
    (r.updateData v).members = v.members.getD r.members := rfl
@[simp] theorem Recent.updateData_counter (v : RecentValues) (r : Recent) :
    (r.updateData v).counter = v.counter.getD r.counter := rfl

/-- The Recent documents; each one carries its own document id as kRECENTID. -/
structure Recents extends Collection Recent where
  recentId_eq : ∀ e ∈ docs, e.2.recentId = e.1

/-- A write to the collection.  A new document is written under a fresh id, which
its content repeats. -/
inductive Write where
  | setData (recent : ℕ → Recent) (self : ∀ id, (recent id).recentId = id)
  | updateData (recentId : ℕ) (values : RecentValues)
  | delete (recentId : ℕ)

namespace Recents

def empty : Recents := ⟨Collection.empty, by simp⟩

def apply (s : Recents) : Write → Recents
  | .setData recent self =>
    ⟨s.toCollection.add recent, by
      intro e he
      rcases Collection.mem_add.mp he with he | rfl
      · exact s.recentId_eq e he
      · exact self _⟩
  | .updateData recentId values =>
    ⟨s.toCollection.update recentId (Recent.updateData values), by
      intro e he
      obtain ⟨d, hd, rfl⟩ := Collection.mem_update.mp he
      split_ifs
      · exact s.recentId_eq d hd
      · exact s.recentId_eq d hd⟩
  | .delete recentId =>
    ⟨s.toCollection.delete recentId, fun e he =>
      s.recentId_eq e (Collection.mem_delete.mp he).1⟩

def all (s : Recents) : List Recent := s.docs.map Prod.snd

/-- `whereField(kCHATROOMID, isEqualTo: chatRoomId).getDocuments` -/
def inRoom (s : Recents) (chatRoomId : String) : List Recent :=
  s.all.filter fun r => r.chatRoomId = chatRoomId

theorem mem_all {s : Recents} {r : Recent} : r ∈ s.all ↔ (r.recentId, r) ∈ s.docs := by
  constructor
  · intro h
    obtain ⟨e, he, rfl⟩ := List.mem_map.mp h
    rw [s.recentId_eq e he]
    exact he
  · exact fun h => List.mem_map.mpr ⟨_, h, rfl⟩

theorem mem_inRoom {s : Recents} {chatRoomId : String} {r : Recent} :
    r ∈ s.inRoom chatRoomId ↔ r ∈ s.all ∧ r.chatRoomId = chatRoomId := by
  simp [inRoom]

theorem map_recentId (s : Recents) : s.all.map Recent.recentId = s.docs.map Prod.fst := by
  rw [all, List.map_map]
  exact List.map_congr_left fun e he => s.recentId_eq e he

theorem eq_of_recentId_eq {s : Recents} {r r' : Recent} (hr : r ∈ s.all) (hr' : r' ∈ s.all)
    (h : r.recentId = r'.recentId) : r = r' :=
  congrArg Prod.snd (Collection.eq_of_fst_eq (mem_all.mp hr) (mem_all.mp hr') h)

theorem all_setData {s : Recents} {recent : ℕ → Recent} {self : ∀ id, (recent id).recentId = id} :
    (s.apply (.setData recent self)).all = s.all ++ [recent s.next] := by
  simp [all, apply, Collection.add]

theorem mem_inRoom_setData {s : Recents} {recent : ℕ → Recent}
    {self : ∀ id, (recent id).recentId = id} {room : String}
    (hroom : (recent s.next).chatRoomId = room) {r : Recent} :
    r ∈ (s.apply (.setData recent self)).inRoom room ↔ r ∈ s.inRoom room ∨ r = recent s.next := by
  rw [mem_inRoom, mem_inRoom, all_setData, List.mem_append, List.mem_singleton]
  constructor
  · rintro ⟨hr | rfl, hr'⟩
    · exact Or.inl ⟨hr, hr'⟩
    · exact Or.inr rfl
  · rintro (⟨hr, hr'⟩ | rfl)
    · exact ⟨Or.inl hr, hr'⟩
    · exact ⟨Or.inr rfl, hroom⟩

theorem all_updateData {s : Recents} {recentId : ℕ} {values : RecentValues} :
    (s.apply (.updateData recentId values)).all =
      s.all.map fun d => if d.recentId = recentId then d.updateData values else d := by
  simp only [all, apply, Collection.update, List.map_map]
  apply List.map_congr_left
  intro e he
  simp only [Function.comp_apply, s.recentId_eq e he]
  split_ifs <;> rfl

theorem mem_inRoom_updateData {s : Recents} {recentId : ℕ} {values : RecentValues}
    {room : String} {r : Recent} :
    r ∈ (s.apply (.updateData recentId values)).inRoom room ↔
      ∃ d ∈ s.inRoom room, (if d.recentId = recentId then d.updateData values else d) = r := by
  have hroom : ∀ d : Recent,
      (if d.recentId = recentId then d.updateData values else d).chatRoomId = d.chatRoomId := by
    intro d
    split_ifs <;> rfl
  rw [mem_inRoom, all_updateData, List.mem_map]
  constructor
  · rintro ⟨⟨d, hd, rfl⟩, hr⟩
    exact ⟨d, mem_inRoom.mpr ⟨hd, (hroom d).symm.trans hr⟩, rfl⟩
  · rintro ⟨d, hd, rfl⟩
    obtain ⟨hd, hr⟩ := mem_inRoom.mp hd
    exact ⟨⟨d, hd, rfl⟩, (hroom d).trans hr⟩

theorem all_delete {s : Recents} {recentId : ℕ} :
    (s.apply (.delete recentId)).all = s.all.filter fun d => d.recentId ≠ recentId := by
  simp only [all, apply, Collection.delete, List.filter_map]
  congr 1
  apply List.filter_congr
  intro e he
  simp only [Function.comp_apply, s.recentId_eq e he]

theorem nodup_recentId (s : Recents) : (s.all.map Recent.recentId).Nodup :=
  s.map_recentId ▸ s.nodup

/-- Updates of distinct Recents, one after the other: every Recent is changed by
the update that names it, if there is one. -/
theorem all_foldl_updateData {s : Recents} {snapshot : List Recent} (v : Recent → RecentValues)
    (hs : snapshot.Sublist s.all) :
    ((snapshot.map fun r => Write.updateData r.recentId (v r)).foldl apply s).all =
      s.all.map fun d => if d ∈ snapshot then d.updateData (v d) else d := by
  -- in terms of the ids alone, so that the induction does not need the snapshot
  have hfind : ∀ (l : List Recent) (s : Recents), (l.map Recent.recentId).Nodup →
      ((l.map fun r => Write.updateData r.recentId (v r)).foldl apply s).all =
        s.all.map fun d => (l.find? fun r => r.recentId = d.recentId).elim d
          fun r => d.updateData (v r) := by
    intro l
    induction l with
    | nil => simp
    | cons r l ih =>
      intro s hnodup
      obtain ⟨hr, hl⟩ := List.nodup_cons.mp hnodup
      rw [List.map_cons, List.foldl_cons, ih _ hl, all_updateData, List.map_map]
      apply List.map_congr_left
      intro d _
      by_cases hid : d.recentId = r.recentId
      · have hnone : (l.find? fun b => b.recentId = r.recentId) = none := by
          rw [List.find?_eq_none]
          intro b hb
          simp only [decide_eq_true_eq]
          intro hbid
          exact hr (hbid ▸ List.mem_map_of_mem hb)
        simp [hid, hnone]
      · have hne : ¬ r.recentId = d.recentId := fun h => hid h.symm
        simp [hid, List.find?_cons_of_neg, hne]
  rw [hfind snapshot s ((hs.map _).nodup s.nodup_recentId)]
  apply List.map_congr_left
  intro d hd
  by_cases hmem : d ∈ snapshot
  · obtain ⟨r, hr⟩ : ∃ r, (snapshot.find? fun r => r.recentId = d.recentId) = some r := by
      rw [← Option.isSome_iff_exists, List.find?_isSome]
      exact ⟨d, hmem, by simp⟩
    have hid : r.recentId = d.recentId := by simpa using List.find?_some hr
    have heq : r = d := eq_of_recentId_eq (hs.subset (List.mem_of_find?_eq_some hr)) hd hid
    rw [hr, if_pos hmem, heq, Option.elim_some]
  · have hnone : (snapshot.find? fun r => r.recentId = d.recentId) = none := by
      rw [List.find?_eq_none]
      intro r hr
      simp only [decide_eq_true_eq]
      intro hid
      exact hmem (eq_of_recentId_eq (hs.subset hr) hd hid ▸ hr)
    rw [hnone, if_neg hmem, Option.elim_none]

end Recents

end LiChat
