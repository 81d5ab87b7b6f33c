import LiChat.ChatSend
import LiChat.General.Runs
import LiChat.RecentMembers

/-!
# Sent messages in the chat lists

Sending writes the documents of the message and then updates the Recents that the room
has.  Only opening a chat from the list creates a Recent that is missing.
-/

namespace LiChat

/-- The rows that `loadRecentChats` shows to the user, newest first. -/
def Recents.loadRecentChats (s : Recents) (currentId : Uid) : List Recent :=
  ((s.all.filter fun r => r.userId = some currentId).mergeSort fun r r' => r'.date ≤ r.date).filter
    fun r => r.lastMessage ≠ ""

theorem Recents.mem_loadRecentChats {s : Recents} {currentId : Uid} {r : Recent} :
    r ∈ s.loadRecentChats currentId ↔
      r ∈ s.all ∧ r.userId = some currentId ∧ r.lastMessage ≠ "" := by
  simp [loadRecentChats, and_assoc]

namespace ChatViewController

/-- The calls of `updateRecents` that have been issued between two states, each run to
completion by the sender. -/
def completeUpdates (currentId : Uid) (now : String) (w w' : SendState) (s : ChatStore) : ChatStore :=
  (w'.updateRecents.drop w.updateRecents.length).foldl
    (fun s call => s.run (.updateRecents currentId now call.1 call.2)) s

/-- `sendMessage` of a text, up to the end of its `updateRecents`. -/
def sendText (vc : ChatViewController) (currentId : Uid) (uuid : String) (date : Date)
    (now text : String) (w : SendState) (s : ChatStore) : Option (SendState × ChatStore) := do
  let w' ← vc.sendPayload uuid date "" (.text text) w
  some (w', completeUpdates currentId now w w' s)

/-- The member owns a Recent of the room that shows the message, and it is listed. -/
def ShowsTo (vc : ChatViewController) (lastMessage : String) (s : ChatStore) (memberId : Uid) : Prop :=
  ∃ r ∈ s.recents.loadRecentChats memberId, r.chatRoomId = vc.chatRoomId ∧
    r.lastMessage = lastMessage

def OwnsRecent (vc : ChatViewController) (s : ChatStore) (memberId : Uid) : Prop :=
  ∃ r ∈ s.recents.inRoom vc.chatRoomId, r.userId = some memberId

theorem sendText_spec {vc : ChatViewController} {currentId : Uid} {uuid : String} {date : Date}
    {now text : String} {w w' : SendState} {s s' : ChatStore}
    (h : vc.sendText currentId uuid date now text w s = some (w', s')) :
    s' = s.run (.updateRecents currentId now vc.chatRoomId (vc.encryptText vc.chatRoomId text)) := by
  obtain ⟨w₁, hsend, h⟩ := Option.bind_eq_some_iff.mp h
  obtain ⟨rfl, rfl⟩ := Prod.mk.inj (Option.some.inj h)
  obtain ⟨⟨w₂, upload⟩, hcall, hfinish⟩ := Option.bind_eq_some_iff.mp hsend
  obtain ⟨user, huser, hcall⟩ := Option.bind_eq_some_iff.mp hcall
  have hcalls : w₁.updateRecents =
      w.updateRecents ++ [(vc.chatRoomId, vc.encryptText vc.chatRoomId text)] := by
    cases hcall
    cases hfinish
    rfl
  rw [completeUpdates, hcalls, List.drop_left]
  rfl

theorem showsTo_run_iff (vc : ChatViewController) (currentId : Uid) (now : String)
    {lastMessage : String} (hne : lastMessage ≠ "") (s : ChatStore) (memberId : Uid) :
    vc.ShowsTo lastMessage (s.run (.updateRecents currentId now vc.chatRoomId lastMessage)) memberId ↔
      vc.OwnsRecent s memberId := by
  have hall := Operation.all_run_updateRecents currentId now vc.chatRoomId lastMessage s.recents
  constructor
  · rintro ⟨r, hr, hroom, -⟩
    obtain ⟨hr, huser, -⟩ := Recents.mem_loadRecentChats.mp hr
    obtain ⟨d, hd, rfl⟩ := List.mem_map.mp (hall ▸ hr)
    have hdroom : d.chatRoomId = vc.chatRoomId := by
      split_ifs at hroom with h
      · exact h
      · exact hroom
    rw [if_pos hdroom] at huser
    exact ⟨d, Recents.mem_inRoom.mpr ⟨hd, hdroom⟩, huser⟩
  · rintro ⟨d, hd, huser⟩
    obtain ⟨hd, hroom⟩ := Recents.mem_inRoom.mp hd
    refine ⟨d.updateData (updateRecentValues currentId now lastMessage d), ?_, hroom, rfl⟩
    refine Recents.mem_loadRecentChats.mpr ⟨?_, huser, hne⟩
    rw [ChatStore.run, hall]
    exact List.mem_map.mpr ⟨d, hd, if_pos hroom⟩

/-- A text that has been sent and has updated the Recents shows in the chat lists of all
members exactly when every member owned a Recent of the room at the update. -/
theorem sendText_visible_iff (vc : ChatViewController) (currentId : Uid) (uuid : String)
    (date : Date) (now text : String) (w w' : SendState) (s s' : ChatStore)
    (hencrypt : ∀ room message, vc.encryptText room message ≠ "")
    (hsend : vc.sendText currentId uuid date now text w s = some (w', s')) :
    (∀ memberId ∈ vc.memberIds,
      vc.ShowsTo (vc.encryptText vc.chatRoomId text) s' memberId) ↔
    ∀ memberId ∈ vc.memberIds, vc.OwnsRecent s memberId := by
  rw [sendText_spec hsend]
  exact forall₂_congr fun memberId _ => showsTo_run_iff vc currentId now (hencrypt _ _) s memberId

end ChatViewController

namespace ChatStore

def screenWithBoris : ChatViewController where
  chatRoomId := "aliceboris"
  memberIds := ["alice", "boris"]
  membersToPush := ["alice", "boris"]
  currentUser := some alice
  coordinates := none
  formatter := dateFormatter 0
  encryptText := fun _ message => "AwE" ++ message
  contentsOfFile := fun _ => none
  videoThumbNail := fun _ => none

theorem sendText_visible_new_chat :
    ∃ s w' s', Runs.exec step empty [.startPrivateChat alice boris "20190204120000"] = some s ∧
      screenWithBoris.sendText "alice" "m1" 0 "20190204120001" "hi" ChatViewController.emptyState s =
        some (w', s') ∧
      ∀ memberId ∈ screenWithBoris.memberIds, screenWithBoris.ShowsTo "AwEhi" s' memberId := by
  refine ⟨_, _, _, rfl, rfl, ?_⟩
  refine (ChatViewController.sendText_visible_iff screenWithBoris "alice" "m1" 0 "20190204120001"
    "hi" _ _ _ _ (fun _ message h => ?_) rfl).mpr ?_
  · simp [screenWithBoris] at h
  · unfold ChatViewController.OwnsRecent
    decide

/-- Boris deletes his row while Alice has the chat open: her next message is written for
him, but no row of his shows the room. -/
theorem sendText_hidden_after_delete :
    ∃ s w' s', Runs.exec step empty [.startPrivateChat alice boris "20190204120000",
        .updateRecents "alice" "20190204120000" "aliceboris" "AwEhello",
        .deleteRecentChat "boris" 1] = some s ∧
      screenWithBoris.sendText "alice" "m1" 0 "20190204120001" "hi" ChatViewController.emptyState s =
        some (w', s') ∧
      "boris" ∈ screenWithBoris.memberIds ∧
      (w'.messages ⟨"boris", "aliceboris", "m1"⟩).isSome ∧
      ¬ screenWithBoris.ShowsTo "AwEhi" s' "boris" := by
  refine ⟨_, _, _, rfl, rfl, by decide, by decide, fun hshows => ?_⟩
  have howns := (ChatViewController.showsTo_run_iff screenWithBoris "alice" "20190204120001"
    (by decide) _ "boris").mp hshows
  revert howns
  unfold ChatViewController.OwnsRecent
  decide

end ChatStore

end LiChat
