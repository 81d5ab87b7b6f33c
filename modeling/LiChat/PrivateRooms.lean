import LiChat.General.PairIds
import LiChat.RecentOperations
import Mathlib.Data.String.Basic

/-!
# The rooms of private chats

The id of a private room is made from the ids of its two users, in one function to start
the chat and in another one to block the other user.
-/

namespace LiChat
open PairIds

/-- Deletes the Recents of the private room; it has its own copy of the computation of the
room id. -/
def blockUser (currentId : Uid) (userToBlock : FUser) : Operation :=
  let userId1 := currentId
  let userId2 := userToBlock.objectId
  let chatRoomId := if userId1 < userId2 then userId1 ++ userId2 else userId2 ++ userId1
  .getRecentsFor chatRoomId

theorem blockUser_chatRoomId (currentUser userToBlock : FUser) :
    (blockUser currentUser.objectId userToBlock).chatRoomId =
      (startPrivateChat currentUser userToBlock).chatRoomId := rfl

theorem toList_privateChatRoomId (a b : Uid) :
    (privateChatRoomId a b).toList = pairId String.toList a b := by
  unfold privateChatRoomId pairId
  split_ifs
  · exact String.toList_append
  · exact String.toList_append

theorem privateChatRoomId_comm (a b : Uid) : privateChatRoomId a b = privateChatRoomId b a := by
  apply String.toList_injective
  rw [toList_privateChatRoomId, toList_privateChatRoomId, pairId_comm]

/-- For user ids of one length the room id determines the pair. -/
theorem privateChatRoomId_eq_iff {a b c d : Uid} {n : ℕ} (ha : a.length = n) (hb : b.length = n)
    (hc : c.length = n) (hd : d.length = n) :
    privateChatRoomId a b = privateChatRoomId c d ↔ s(a, b) = s(c, d) := by
  have hlength : ∀ {u : Uid}, u.length = n → u.toList.length = n :=
    fun h => String.length_toList.trans h
  rw [← String.toList_inj, toList_privateChatRoomId, toList_privateChatRoomId]
  exact pairId_inj (fun _ _ => String.toList_injective) (hlength ha) (hlength hb) (hlength hc) (hlength hd)

theorem length_privateChatRoomId (a b : Uid) :
    (privateChatRoomId a b).length = a.length + b.length := by
  unfold privateChatRoomId
  split_ifs
  · exact String.length_append ..
  · rw [String.length_append, Nat.add_comm]

/-- User ids of one length: whoever of the two users starts the chat or blocks the other
one, the room id is the same, and it determines the pair. -/
theorem private_room_identifies_pair (n : ℕ) (user1 user2 user3 user4 : FUser)
    (h1 : user1.objectId.length = n) (h2 : user2.objectId.length = n)
    (h3 : user3.objectId.length = n) (h4 : user4.objectId.length = n) :
    (startPrivateChat user1 user2).chatRoomId = (startPrivateChat user2 user1).chatRoomId ∧
    ((startPrivateChat user1 user2).chatRoomId = (startPrivateChat user3 user4).chatRoomId ↔
      s(user1.objectId, user2.objectId) = s(user3.objectId, user4.objectId)) ∧
    (blockUser user1.objectId user2).chatRoomId = (startPrivateChat user1 user2).chatRoomId := by
  refine ⟨privateChatRoomId_comm _ _, ?_, blockUser_chatRoomId user1 user2⟩
  exact privateChatRoomId_eq_iff h1 h2 h3 h4

def userWithId (objectId : Uid) : FUser := FUser.make objectId none 0 0 "" "" "" "" "" "" "" ""

theorem private_room_identifies_ann_and_bea :
    (startPrivateChat (userWithId "ann") (userWithId "bea")).chatRoomId =
        (startPrivateChat (userWithId "bea") (userWithId "ann")).chatRoomId ∧
    (blockUser "ann" (userWithId "bea")).chatRoomId =
      (startPrivateChat (userWithId "ann") (userWithId "bea")).chatRoomId := by
  obtain ⟨hcomm, -, hblock⟩ := private_room_identifies_pair 3 (userWithId "ann") (userWithId "bea")
    (userWithId "bea") (userWithId "ann") rfl rfl rfl rfl
  exact ⟨hcomm, hblock⟩

end LiChat
