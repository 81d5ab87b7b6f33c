import LiChat.User
import Mathlib.Logic.Function.Basic

/-!
# Message documents

A message is stored once for every member of its room, at
Message/<member>/<chatRoomId>/<messageId>, always with the same data.
-/

namespace LiChat

/-- The data of a message document; every key may be missing. -/
structure MessageDictionary where
  message : Option String := none
  senderId : Option Uid := none
  senderName : Option String := none
  date : Option String := none
  status : Option String := none
  type : Option String := none
  messageId : Option String := none
  picture : Option String := none
  video : Option String := none
  audio : Option String := none
  latitude : Option ℚ := none
  longitude : Option ℚ := none
  readDate : Option String := none
  deriving DecidableEq, Repr

def legitTypes : List String := [ kAUDIO, kVIDEO, kTEXT, kLOCATION, kPICTURE]

namespace OutgoingMessages

def base (f : DateFormatter) (message : String) (senderId : Uid) (senderName : String)
    (date : Date) (status type : String) : MessageDictionary where
  message := some message
  senderId := some senderId
  senderName := some senderName
  date := some (f.string date)
  status := some status
  type := some type

def text (f : DateFormatter) (message : String) (senderId : Uid) (senderName : String)
    (date : Date) (status type : String) : MessageDictionary :=
  base f message senderId senderName date status type

def picture (f : DateFormatter) (message pictureLink : String) (senderId : Uid)
    (senderName : String) (date : Date) (status type : String) : MessageDictionary :=
  { base f message senderId senderName date status type with picture := some pictureLink }

def audio (f : DateFormatter) (message audio : String) (senderId : Uid)
    (senderName : String) (date : Date) (status type : String) : MessageDictionary :=
  { base f message senderId senderName date status type with audio := some audio }

/-- `thumbNail` is the base64 text of the thumbnail. -/
def video (f : DateFormatter) (message video thumbNail : String) (senderId : Uid)
    (senderName : String) (date : Date) (status type : String) : MessageDictionary :=
  { base f message senderId senderName date status type with
    video := some video
    picture := some thumbNail }

def location (f : DateFormatter) (message : String) (latitude longitude : ℚ) (senderId : Uid)
    (senderName : String) (date : Date) (status type : String) : MessageDictionary :=
  { base f message senderId senderName date status type with
    latitude := some latitude
    longitude := some longitude }

end OutgoingMessages

structure MessagePath where
  memberId : Uid
  chatRoomId : String
  messageId : String
  deriving DecidableEq, Repr

abbrev MessageStore := MessagePath → Option MessageDictionary

namespace MessageStore

def setData (store : MessageStore) (path : MessagePath) (data : MessageDictionary) :
    MessageStore :=
  Function.update store path (some data)

def setDataFor (store : MessageStore) (memberIds : List Uid) (chatRoomId messageId : String)
    (data : MessageDictionary) : MessageStore :=
  memberIds.foldl (fun s memberId => s.setData ⟨memberId, chatRoomId, messageId⟩ data) store

theorem setData_self (store : MessageStore) (path : MessagePath) (data : MessageDictionary) :
    store.setData path data path = some data := Function.update_self ..

theorem setData_of_ne {store : MessageStore} {path path' : MessagePath} {data : MessageDictionary}
    (h : path' ≠ path) : store.setData path data path' = store path' :=
  Function.update_of_ne h ..

theorem setDataFor_apply (store : MessageStore) (memberIds : List Uid)
    (chatRoomId messageId : String) (data : MessageDictionary) (path : MessagePath) :
    store.setDataFor memberIds chatRoomId messageId data path =
      if path.memberId ∈ memberIds ∧ path.chatRoomId = chatRoomId ∧ path.messageId = messageId
      then some data else store path := by
  induction memberIds generalizing store with
  | nil => simp [setDataFor]
  | cons memberId memberIds ih =>
    have hstep := ih (store.setData ⟨memberId, chatRoomId, messageId⟩ data)
    rw [setDataFor, List.foldl_cons, ← setDataFor, hstep]
    by_cases hpath : path = ⟨memberId, chatRoomId, messageId⟩
    · subst hpath
      simp [setData_self]
    · rw [setData_of_ne hpath]
      have hhead : ¬ (path.memberId = memberId ∧ path.chatRoomId = chatRoomId ∧
          path.messageId = messageId) := by
        rintro ⟨rfl, rfl, rfl⟩
        exact hpath rfl
      have hiff : (path.memberId ∈ memberId :: memberIds ∧ path.chatRoomId = chatRoomId ∧
          path.messageId = messageId) ↔ (path.memberId ∈ memberIds ∧
          path.chatRoomId = chatRoomId ∧ path.messageId = messageId) := by
        rw [List.mem_cons]
        tauto
      rw [if_congr hiff rfl rfl]

end MessageStore

end LiChat
