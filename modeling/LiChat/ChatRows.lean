import LiChat.EncryptedMessages
import LiChat.RecentCounters
import LiChat.RecentVisibility
import LiChat.TimeElapsed

/-!
# The rows of the chat list

A row shows the text and the date that `updateRecents` has put into its Recent.  Texts are
encrypted on the device that sends and decrypted on the one that shows the row.
-/

namespace LiChat
open Calendar

/-- What a cell shows; the views of the counter are hidden together. -/
structure RecentChatTableViewCell (Image : Type) where
  nameLabel : String
  lastMessageLabel : String
  avatarImageView : Option Image
  messageCounterLabel : Option String
  messageCounterIsHidden : Bool
  dateLabel : String

/-- A cell that is used again keeps its picture where the avatar is no image.  `none` is the trap
on a text that is not UTF-8, an avatar that is not Base64, or a date that does not exist. -/
def generateCell {Image : Type} (uiImage : NSData → Option Image) (c : RNCryptor)
    (f : DateFormatter) (rule : WeekRule) (now : Date) (shown : Option Image)
    (recentChat : Recent) : Option (RecentChatTableViewCell Image) := do
  let decryptedText ← ENcryption.decryptText c recentChat.chatRoomId recentChat.lastMessage
  let avatarImage ← imageFromData uiImage recentChat.avatar
  let dateLabel ← dateLabel f rule now (some recentChat.date)
  some
    { nameLabel := recentChat.withUserFullName
      lastMessageLabel := decryptedText
      avatarImageView := avatarImage.or shown
      messageCounterLabel :=
        if recentChat.counter ≠ 0 then some (toString recentChat.counter) else none
      messageCounterIsHidden := recentChat.counter = 0
      dateLabel := dateLabel }

/-- A text that has been encrypted for its room, and the clock of its sender. -/
structure SentText (cc : RNCryptor.CommonCrypto) where
  chatRoomId : String
  random : RNCryptor.RandomData
  text : String
  lastMessage : String
  formatter : DateFormatter
  date : Date
  encryptText : ENcryption.encryptText (RNCryptor.v3 cc random) chatRoomId text = some lastMessage
  inYears : formatter.InYears date

theorem SentText.lastMessage_ne {cc : RNCryptor.CommonCrypto} (m : SentText cc) : m.lastMessage ≠ "" := by
  intro hempty
  obtain ⟨-, hpacket⟩ := (RNCryptor.encryptText_eq_some cc).mp m.encryptText
  have hdecoded := base64Decoded_encoded ((RNCryptor.Credential.password m.chatRoomId).packet cc
    m.random (cc.crypt .encrypt (RNCryptor.makeKey cc m.chatRoomId m.random.encryptionSalt)
      m.random.iv m.text.toUTF8.data.toList))
  rw [hpacket, hempty] at hdecoded
  have hhead := RNCryptor.Credential.head?_packet cc (.password m.chatRoomId) m.random
    (cc.crypt .encrypt (RNCryptor.makeKey cc m.chatRoomId m.random.encryptionSalt) m.random.iv
      m.text.toUTF8.data.toList)
  rw [← Option.some.inj hdecoded] at hhead
  cases hhead

/-- The values that `updateExistingRecentWithNewValues` is called with: members, members to
notify, a name or an avatar. -/
structure NewValues where
  values : RecentValues
  lastMessage : values.lastMessage = none
  date : values.date = none

inductive RowAction (cc : RNCryptor.CommonCrypto) where
  | sendMessage (currentId : Uid) (m : SentText cc)
  | createRecent (currentId : Uid) (date : String) (c : CreateRecent)
  | clearRecentCouter (currentId : Uid) (chatRoomId : String)
  | updateExistingRecentWithNewValues (chatRoomId : String) (v : NewValues)
  | getRecentsFor (chatRoomId : String)
  | deleteRecentChat (recentId : ℕ)

namespace RowAction
variable {cc : RNCryptor.CommonCrypto}

def run (s : Recents) : RowAction cc → Recents
  | sendMessage currentId m =>
    (Operation.updateRecents currentId (m.formatter.string m.date) m.chatRoomId m.lastMessage).run s
  | createRecent currentId date c => (Operation.createRecent currentId date c).run s
  | clearRecentCouter currentId chatRoomId => (Operation.clearRecentCouter currentId chatRoomId).run s
  | updateExistingRecentWithNewValues chatRoomId v =>
    (Operation.updateExistingRecentWithNewValues chatRoomId v.values).run s
  | getRecentsFor chatRoomId => (Operation.getRecentsFor chatRoomId).run s
  | deleteRecentChat recentId => s.apply (.delete recentId)

def reached (actions : List (RowAction cc)) : Recents := actions.foldl run Recents.empty

theorem reached_concat (actions : List (RowAction cc)) (a : RowAction cc) :
    reached (actions ++ [a]) = run (reached actions) a := by
  rw [reached, List.foldl_append]
  rfl

/-- The message of the action, if it is sent to the room. -/
def sentTo (room : String) : RowAction cc → Option (SentText cc)
  | sendMessage _ m => if m.chatRoomId = room then some m else none
  | _ => none

def lastSent (room : String) (history : List (RowAction cc)) : Option (SentText cc) :=
  (history.filterMap (sentTo room)).getLast?

/-- The text and the date of the row are those of the message; a new row has no text. -/
def Shows (r : Recent) : Option (SentText cc) → Prop
  | none => r.lastMessage = ""
  | some m => m.chatRoomId = r.chatRoomId ∧ r.lastMessage = m.lastMessage ∧
      r.date = m.formatter.string m.date

theorem lastSent_concat (room : String) (history : List (RowAction cc)) (a : RowAction cc) :
    lastSent room (history ++ [a]) = (sentTo room a).or (lastSent room history) := by
  unfold lastSent
  rw [List.filterMap_append]
  cases h : sentTo room a with
  | none => simp [h]
  | some m => simp [h]

def effectOn (d : Recent) : RowAction cc → Recent
  | sendMessage currentId m =>
    if d.chatRoomId = m.chatRoomId then
      d.updateData (updateRecentValues currentId (m.formatter.string m.date) m.lastMessage d)
    else d
  | clearRecentCouter currentId chatRoomId =>
    if d.chatRoomId = chatRoomId ∧ d.userId = some currentId then d.updateData { counter := some 0 }
    else d
  | updateExistingRecentWithNewValues chatRoomId v =>
    if d.chatRoomId = chatRoomId then d.updateData v.values else d
  | _ => d

variable {s : Recents} {a : RowAction cc} {r d : Recent}

/-- Every Recent after an action is an old one with the effect of the action, or a new one. -/
theorem run_cases (hr : r ∈ (run s a).all) :
    (∃ d ∈ s.all, r = effectOn d a) ∨
      (r.lastMessage = "" ∧ ∀ d ∈ s.all, d.recentId ≠ r.recentId) := by
  cases a with
  | sendMessage currentId m =>
    rw [run, Operation.all_run_updateRecents] at hr
    obtain ⟨d, hd, rfl⟩ := List.mem_map.mp hr
    exact .inl ⟨d, hd, rfl⟩
  | createRecent currentId date c =>
    obtain ⟨users, created, -, -, hall, hcreated⟩ :=
      Operation.all_run_createRecent currentId date c s
    rcases List.mem_append.mp (hall ▸ hr) with hold | hnew
    · exact .inl ⟨r, hold, rfl⟩
    · obtain ⟨u, -, hu⟩ := Rows.exists_of_forall₂ hcreated hnew
      refine .inr ⟨hu.lastMessage, fun d hd hid => ?_⟩
      have hnodup := Recents.nodup_recentId ((Operation.createRecent currentId date c).run s)
      rw [hall, List.map_append, List.nodup_append] at hnodup
      exact hnodup.2.2 _ (List.mem_map_of_mem hd) _ (List.mem_map_of_mem hnew) hid
  | clearRecentCouter currentId chatRoomId =>
    rw [run, Operation.all_run_clearRecentCouter] at hr
    obtain ⟨d, hd, rfl⟩ := List.mem_map.mp hr
    exact .inl ⟨d, hd, rfl⟩
  | updateExistingRecentWithNewValues chatRoomId v =>
    rw [run, Operation.all_run_updateExistingRecentWithNewValues] at hr
    obtain ⟨d, hd, rfl⟩ := List.mem_map.mp hr
    exact .inl ⟨d, hd, rfl⟩
  | getRecentsFor chatRoomId =>
    rw [run, Operation.all_run_getRecentsFor] at hr
    exact .inl ⟨r, List.mem_of_mem_filter hr, rfl⟩
  | deleteRecentChat recentId =>
    rw [run, Recents.all_delete] at hr
    exact .inl ⟨r, List.mem_of_mem_filter hr, rfl⟩

theorem effectOn_key (d : Recent) (a : RowAction cc) : (effectOn d a).key = d.key := by
  cases a <;> simp only [effectOn] <;> split_ifs <;> rfl

theorem shows_effectOn {o : Option (SentText cc)} (h : Shows d o) (a : RowAction cc) :
    Shows (effectOn d a) ((sentTo d.chatRoomId a).or o) := by
  cases a with
  | sendMessage currentId m =>
    by_cases hroom : d.chatRoomId = m.chatRoomId
    · simp only [effectOn, sentTo, if_pos hroom, if_pos hroom.symm, Option.some_or]
      exact ⟨hroom.symm, rfl, rfl⟩
    · simpa [effectOn, sentTo, hroom, Ne.symm hroom] using h
  | updateExistingRecentWithNewValues chatRoomId v =>
    simp only [effectOn, sentTo, Option.none_or]
    split_ifs
    · have hmessage : (d.updateData v.values).lastMessage = d.lastMessage := by
        simp [Recent.updateData, v.lastMessage]
      have hdate : (d.updateData v.values).date = d.date := by
        simp [Recent.updateData, v.date]
      cases o with
      | none => exact hmessage.trans h
      | some m => exact ⟨h.1, hmessage.trans h.2.1, hdate.trans h.2.2⟩
    · exact h
  | clearRecentCouter currentId chatRoomId =>
    simp only [effectOn, sentTo, Option.none_or]
    split_ifs
    · cases o with
      | none => exact h
      | some m => exact h
    · exact h
  | createRecent currentId date c => exact h
  | getRecentsFor chatRoomId => exact h
  | deleteRecentChat recentId => exact h

structure CreatedBy (r : Recent) (before : List (RowAction cc)) (creation : RowAction cc) :
    Prop where
  fresh : ∀ d ∈ (reached before).all, d.recentId ≠ r.recentId
  created : ∃ d ∈ (reached (before ++ [creation])).all, d.key = r.key

theorem exists_shows (actions : List (RowAction cc)) :
    ∀ r ∈ (reached actions).all, ∃ before creation after,
      actions = before ++ creation :: after ∧ CreatedBy r before creation ∧
        Shows r (lastSent r.chatRoomId after) := by
  induction actions using List.reverseRecOn with
  | nil => exact fun r hr => absurd hr List.not_mem_nil
  | append_singleton actions a ih =>
    intro r hr
    rw [reached_concat] at hr
    rcases run_cases hr with ⟨d, hd, rfl⟩ | ⟨hmessage, hfresh⟩
    · obtain ⟨before, creation, after, hactions, hcreated, hshows⟩ := ih d hd
      have hkey : (effectOn d a).key = d.key := effectOn_key d a
      refine ⟨before, creation, after ++ [a], by rw [hactions]; simp, ⟨?_, ?_⟩, ?_⟩
      · rw [show (effectOn d a).recentId = d.recentId from congrArg Prod.fst hkey]
        exact hcreated.fresh
      · rw [hkey]
        exact hcreated.created
      · rw [show (effectOn d a).chatRoomId = d.chatRoomId from
          congrArg (fun key => key.2.2) hkey, lastSent_concat]
        exact shows_effectOn hshows a
    · refine ⟨actions, a, [], rfl, ⟨hfresh, r, ?_, rfl⟩, hmessage⟩
      rw [reached_concat]
      exact hr

/-- The text is read on every device, and the date by its own clock; an avatar that is not
Base64 traps. -/
theorem generateCell_of_shows {Image : Type} (uiImage : NSData → Option Image)
    (reader : RNCryptor.RandomData) (f : DateFormatter) (rule : WeekRule) (now : Date)
    (shown : Option Image) {m : SentText cc} (h : Shows r (some m)) :
    generateCell uiImage (RNCryptor.v3 cc reader) f rule now shown r =
      (imageFromData uiImage r.avatar).map fun avatarImage =>
        { nameLabel := r.withUserFullName
          lastMessageLabel := m.text
          avatarImageView := avatarImage.or shown
          messageCounterLabel := if r.counter ≠ 0 then some (toString r.counter) else none
          messageCounterIsHidden := r.counter = 0
          dateLabel := timeElapsed f rule now
            ((m.formatter.wallClock m.date - f.secondsFromGMT : ℤ) : ℚ) } := by
  obtain ⟨hroom, hmessage, hstring⟩ := h
  have htext : ENcryption.decryptText (RNCryptor.v3 cc reader) r.chatRoomId r.lastMessage =
      some m.text := by
    rw [← hroom, hmessage]
    exact ENcryption.decryptText_encryptText (c := RNCryptor.v3 cc m.random) m.encryptText
  have hdate : dateLabel f rule now (some r.date) = some (timeElapsed f rule now
      ((m.formatter.wallClock m.date - f.secondsFromGMT : ℤ) : ℚ)) := by
    unfold dateLabel
    simp only [hstring, length_string, ne_eq, not_true_eq_false, if_false,
      f.date_string m.inYears]
    rfl
  simp only [generateCell, htext, hdate]
  cases imageFromData uiImage r.avatar <;> rfl

/-- For every run of all operations on Recents, one after the other: a row is listed exactly when
a message has been sent to its room since the Recent was created, and then its cell shows the
text of the last one, at the time that its sender's clock showed, unless the avatar of the row
is not Base64. -/
theorem listed_row_shows_last_message {Image : Type} (uiImage : NSData → Option Image)
    (cc : RNCryptor.CommonCrypto) (reader : RNCryptor.RandomData) (f : DateFormatter)
    (rule : WeekRule) (now : Date) (shown : Option Image) (actions : List (RowAction cc)) :
    ∀ r ∈ (reached actions).all, ∃ before creation after,
      actions = before ++ creation :: after ∧ CreatedBy r before creation ∧
      (∀ currentId, r ∈ (reached actions).loadRecentChats currentId ↔
        r.userId = some currentId ∧ (lastSent r.chatRoomId after).isSome) ∧
      ∀ m, lastSent r.chatRoomId after = some m →
        generateCell uiImage (RNCryptor.v3 cc reader) f rule now shown r =
          (imageFromData uiImage r.avatar).map fun avatarImage =>
            { nameLabel := r.withUserFullName
              lastMessageLabel := m.text
              avatarImageView := avatarImage.or shown
              messageCounterLabel := if r.counter ≠ 0 then some (toString r.counter) else none
              messageCounterIsHidden := r.counter = 0
              dateLabel := timeElapsed f rule now
                ((m.formatter.wallClock m.date - f.secondsFromGMT : ℤ) : ℚ) } := by
  intro r hr
  obtain ⟨before, creation, after, hactions, hcreated, hshows⟩ := exists_shows actions r hr
  refine ⟨before, creation, after, hactions, hcreated, fun currentId => ?_, fun m hm => ?_⟩
  · rw [Recents.mem_loadRecentChats, and_iff_right hr]
    refine and_congr_right fun _ => ?_
    cases hlast : lastSent r.chatRoomId after with
    | none =>
      rw [hlast] at hshows
      have hmessage : r.lastMessage = "" := hshows
      simp [hmessage]
    | some m =>
      rw [hlast] at hshows
      simp [show r.lastMessage = _ from hshows.2.1, m.lastMessage_ne]
  · exact generateCell_of_shows uiImage reader f rule now shown (hm ▸ hshows)

def aliceWrites (text : String) (seconds : ℕ) (h : seconds < 60) :
    SentText RNCryptor.xorCrypto where
  chatRoomId := "alicebob"
  random := RNCryptor.zeroRandomData
  text := text
  lastMessage := (ENcryption.encryptText
    (RNCryptor.v3 RNCryptor.xorCrypto RNCryptor.zeroRandomData) "alicebob" text).getD ""
  formatter := dateFormatter 0
  date := secondOf seconds
  encryptText := rfl
  inYears := inYears_secondOf h

/-- Alice starts a chat with Bob and writes to him twice. -/
def aliceStartsChat : List (RowAction RNCryptor.xorCrypto) :=
  [.createRecent "alice" "20190129000000" (startPrivateChat
      (FUser.make "alice" none 0 0 "" "Alice" "" "QQ==" "" "" "" "")
      (FUser.make "bob" none 0 0 "" "Bob" "" "" "" "" "" "")),
    .sendMessage "alice" (aliceWrites "hi" 40 (by decide)),
    .sendMessage "alice" (aliceWrites "hello" 50 (by decide))]

/-- Bob's list says hello, with Alice's avatar. -/
theorem listed_row_shows_hello :
    ∃ r ∈ (reached aliceStartsChat).loadRecentChats "bob",
      ∃ cell, generateCell some (RNCryptor.v3 RNCryptor.xorCrypto RNCryptor.zeroRandomData)
          (dateFormatter 3600) .iso (secondOf 60) none r = some cell ∧
        cell.lastMessageLabel = "hello" ∧ cell.avatarImageView = some [65] := by
  obtain ⟨r, hr, hlisted, hroom, havatar⟩ : ∃ r ∈ (reached aliceStartsChat).all,
      r ∈ (reached aliceStartsChat).loadRecentChats "bob" ∧ r.chatRoomId = "alicebob" ∧
        r.avatar = "QQ==" := by decide +kernel
  obtain ⟨before, creation, after, hactions, -, hmem, hcell⟩ :=
    listed_row_shows_last_message some RNCryptor.xorCrypto RNCryptor.zeroRandomData
      (dateFormatter 3600) .iso (secondOf 60) none aliceStartsChat r hr
  obtain ⟨m, hm⟩ := Option.isSome_iff_exists.mp ((hmem "bob").mp hlisted).2
  -- whichever action made the Recent, the second message comes last
  have hlast : lastSent "alicebob" after = none ∨
      lastSent "alicebob" after = some (aliceWrites "hello" 50 (by decide)) := by
    rcases before with _ | ⟨_, _ | ⟨_, _ | ⟨_, before⟩⟩⟩
    · obtain ⟨-, rfl⟩ := List.cons.inj hactions
      exact .inr rfl
    · obtain ⟨-, rfl⟩ := List.cons.inj (List.cons.inj hactions).2
      exact .inr rfl
    · obtain ⟨-, rfl⟩ := List.cons.inj (List.cons.inj (List.cons.inj hactions).2).2
      exact .inl rfl
    · cases (List.append_eq_nil_iff.mp (List.cons.inj (List.cons.inj (List.cons.inj
        hactions).2).2).2.symm).2
  have hhello : m = aliceWrites "hello" 50 (by decide) := by
    rw [hroom] at hm
    rcases hlast with hnone | hsome
    · cases hnone.symm.trans hm
    · exact Option.some.inj (hm.symm.trans hsome)
  have himage : imageFromData some r.avatar = some (some [65]) := by
    rw [havatar]
    decide
  refine ⟨r, hlisted, _, (hcell m hm).trans (by rw [himage]; rfl), ?_, rfl⟩
  rw [hhello]
  rfl

end RowAction

end LiChat
