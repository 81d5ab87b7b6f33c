import LiChat.Clients
import LiChat.PrivateRooms

/-!
# Blocking

`checkBlockedStatus` asks a copy of the other user's profile, and only when a chat
is started from a user list or a profile.  The messages and Recents of the private
room of `a` and `b` are also reached from open chats, from rows of the chat list
and by requests under way.
-/

namespace LiChat

def Operation.Allows : Operation → Recent → Prop
  | createRecent _ _ c, d => d.chatRoomId = c.chatRoomId ∧ ∃ u ∈ c.members, d.userId = some u
  | updateRecents _ _ chatRoomId _, d => d.chatRoomId = chatRoomId
  | updateExistingRecentWithNewValues chatRoomId _, d => d.chatRoomId = chatRoomId
  | clearRecentCouter currentId chatRoomId, d =>
    d.chatRoomId = chatRoomId ∧ d.userId = some currentId
  | getRecentsFor _, _ => False

/-- The write creates or updates such a Recent only; a Recent that it names may be
gone. -/
def Write.Within (s : Recents) (op : Operation) : Write → Prop
  | .setData recent _ => ∀ id, op.Allows (recent id)
  | .updateData recentId _ =>
    recentId < s.next ∧ ∀ d ∈ s.all, d.recentId = recentId → op.Allows d
  | .delete _ => True

theorem Operation.allows_updateData {op : Operation} {d : Recent} {values : RecentValues} :
    op.Allows (d.updateData values) ↔ op.Allows d := by
  cases op <;> rfl

theorem Recents.recentId_lt {s : Recents} {r : Recent} (hr : r ∈ s.all) : r.recentId < s.next :=
  s.fresh _ (Recents.mem_all.mp hr)

theorem within_updateData {s : Recents} {op : Operation} {r : Recent} {values : RecentValues}
    (hr : r ∈ s.all) (hop : op.Allows r) :
    Write.Within s op (.updateData r.recentId values) := by
  refine ⟨Recents.recentId_lt hr, fun d hd hid => ?_⟩
  rw [Recents.eq_of_recentId_eq hd hr hid]
  exact hop

theorem callback_within (op : Operation) (s : Recents) :
    ∀ x ∈ op.callback (s.inRoom op.chatRoomId), x.Within s op := by
  intro x hx
  cases op with
  | createRecent currentId date c =>
    simp only [Operation.callback, Operation.chatRoomId] at hx
    cases h : createRecent currentId date c (s.inRoom c.chatRoomId) with
    | none =>
      rw [h] at hx
      exact absurd hx List.not_mem_nil
    | some writes =>
      rw [h] at hx
      obtain ⟨users, hsub, -, hcreates⟩ := createRecent_creates h
      obtain ⟨u, hmem, hu⟩ := Rows.exists_of_forall₂ hcreates hx
      cases x with
      | setData recent self =>
        have hmember := (removeOwners_sublist _ _).subset (hsub.subset hmem)
        exact fun id => ⟨(hu id).chatRoomId, u, hmember, (hu id).userId⟩
      | updateData recentId values => exact hu.elim
      | delete recentId => exact hu.elim
  | updateRecents currentId date chatRoomId lastMessage =>
    obtain ⟨r, hr, rfl⟩ := List.mem_map.mp hx
    obtain ⟨hr, hroom⟩ := Recents.mem_inRoom.mp hr
    exact within_updateData hr hroom
  | clearRecentCouter currentId chatRoomId =>
    obtain ⟨r, hr, rfl⟩ := List.mem_map.mp hx
    obtain ⟨hr, huser⟩ := List.mem_filter.mp hr
    obtain ⟨hr, hroom⟩ := Recents.mem_inRoom.mp hr
    exact within_updateData hr ⟨hroom, of_decide_eq_true huser⟩
  | updateExistingRecentWithNewValues chatRoomId values =>
    obtain ⟨r, hr, rfl⟩ := List.mem_map.mp hx
    obtain ⟨hr, hroom⟩ := Recents.mem_inRoom.mp hr
    exact within_updateData hr hroom
  | getRecentsFor chatRoomId =>
    obtain ⟨r, -, rfl⟩ := List.mem_map.mp hx
    trivial

theorem apply_allowed {s : Recents} {op : Operation} {x : Write} (hx : x.Within s op) :
    ∀ r ∈ (s.apply x).all, r ∈ s.all ∨ op.Allows r := by
  intro r hr
  cases x with
  | setData recent self =>
    rw [Recents.all_setData] at hr
    rcases List.mem_append.mp hr with hr | hr
    · exact Or.inl hr
    · rw [List.mem_singleton.mp hr]
      exact Or.inr (hx _)
  | updateData recentId values =>
    rw [Recents.all_updateData] at hr
    obtain ⟨d, hd, rfl⟩ := List.mem_map.mp hr
    by_cases hid : d.recentId = recentId
    · rw [if_pos hid]
      exact Or.inr (Operation.allows_updateData.mpr (hx.2 d hd hid))
    · rw [if_neg hid]
      exact Or.inl hd
  | delete recentId =>
    rw [Recents.all_delete] at hr
    exact Or.inl (List.mem_of_mem_filter hr)

theorem within_apply {s : Recents} {op : Operation} {x : Write} (hx : x.Within s op) (y : Write) :
    x.Within (s.apply y) op := by
  cases x with
  | setData recent self => exact hx
  | delete recentId => trivial
  | updateData recentId values =>
    obtain ⟨hlt, hallowed⟩ := hx
    cases y with
    | setData recent self =>
      -- a new Recent gets an id that no pending write names
      refine ⟨Nat.lt_succ_of_lt hlt, fun d hd hid => ?_⟩
      rw [Recents.all_setData] at hd
      rcases List.mem_append.mp hd with hd | hd
      · exact hallowed d hd hid
      · rw [List.mem_singleton.mp hd, self] at hid
        omega
    | updateData recentId' values' =>
      refine ⟨hlt, fun d hd hid => ?_⟩
      rw [Recents.all_updateData] at hd
      obtain ⟨d', hd', rfl⟩ := List.mem_map.mp hd
      by_cases h : d'.recentId = recentId'
      · rw [if_pos h] at hid ⊢
        exact Operation.allows_updateData.mpr (hallowed d' hd' hid)
      · rw [if_neg h] at hid ⊢
        exact hallowed d' hd' hid
    | delete recentId' =>
      refine ⟨hlt, fun d hd hid => ?_⟩
      rw [Recents.all_delete] at hd
      exact hallowed d (List.mem_of_mem_filter hd) hid

def Evolves (s s' : Recents) : Prop := ∀ x op, Write.Within s op x → Write.Within s' op x

theorem Evolves.refl (s : Recents) : Evolves s s := fun _ _ h => h

theorem evolves_apply (s : Recents) (y : Write) : Evolves s (s.apply y) :=
  fun _ _ h => within_apply h y

/-- The operation can create or update Recents of `b` in the room. -/
def Operation.Reaches (b : Uid) (room : String) (op : Operation) : Prop :=
  ∃ d : Recent, d.chatRoomId = room ∧ d.userId = some b ∧ op.Allows d

/-- The task can still write to messages or Recents of `b` in the room. -/
def TaskBody.Reaches {u : Uid} (b : Uid) (room : String) : TaskBody u → Prop
  | upload chatRoomId _ _ => chatRoomId = room
  | query op => op.Reaches b room
  | write op _ => op.Reaches b room
  | getMessage path _ => path.memberId = b ∧ path.chatRoomId = room
  | updateMessage path _ => path.memberId = b ∧ path.chatRoomId = room
  | _ => False

def SendArguments.IsLocation (args : SendArguments) : Prop :=
  ∃ text location, location.isSome ∧ args = { text := text, location := location }

section
variable (a b : Uid) (t : ℕ)

/-- What the client of `a` leaves undone, when `b` has blocked `a` by the time `t`: it
starts no chat from a copy of the profile of `b` that was read before; it taps no row
of their room that pushes to `b`, and mutes none; in an open chat of the room it sends
nothing but locations, and inserts no incoming message if the chat pushes to `b`; and
no older task that reaches `b` in the room goes on. -/
def KeepsAway (w : World) : ClientAction → Prop
  | .startChat i _ => ∀ copy, (w.client a).copies[i]? = some copy →
      copy.user.objectId = b → t ≤ copy.readAt
  | .didSelectRow i _ => ∀ r, (w.client a).rows[i]? = some r →
      r.chatRoomId = privateChatRoomId a b → b ∉ r.membersToPush
  | .updatePushMembers i => ∀ r, (w.client a).rows[i]? = some r →
      r.chatRoomId ≠ privateChatRoomId a b
  | .sendMessage k _ _ _ _ args => ∀ chat, (w.client a).chats[k]? = some chat →
      chat.chatRoomId = privateChatRoomId a b → args.IsLocation
  | .insertInitialLoadMessages k _ _ => ∀ chat, (w.client a).chats[k]? = some chat →
      chat.chatRoomId = privateChatRoomId a b → b ∉ chat.membersToPush
  | .proceed i _ _ => ∀ task, (w.client a).tasks[i]? = some task → task.begunAt < t →
      ¬ task.body.Reaches b (privateChatRoomId a b)
  | _ => True

/-- No update of `b` that succeeds takes `a` off the list. -/
def KeepsBlocked (w : World) : ClientAction → Prop
  | .proceed i answer _ => ∀ task withValues userObject blocked,
      (w.client b).tasks[i]? = some task → task.body = .updateUser withValues userObject →
      answer.isSome → withValues.blockedUsers = some blocked → a ∈ blocked
  | _ => True

def KeepsBlock (w : World) (step : Uid × ClientAction) : Prop :=
  (step.1 = a → KeepsAway a b t w step.2) ∧ (step.1 = b → KeepsBlocked a b w step.2)

/-- The stored profile of `b` lists `a` as blocked. -/
def Blocks (w : World) : Prop := a ∈ (w.users b).1.blockedUsers

/-- No message document of `b` in the room of `a` and `b` is written, and no Recent of
`b` in that room is created or updated. -/
def Respected (w w' : World) : Prop :=
  (∀ path, path.memberId = b → path.chatRoomId = privateChatRoomId a b →
    w'.messages path = w.messages path) ∧
  ∀ r ∈ w'.recents.all, r.userId = some b → r.chatRoomId = privateChatRoomId a b →
    r ∈ w.recents.all

/-- A copy of the profile of `b` that was read since `t` lists `a`. -/
def Lists (copy : ProfileCopy) : Prop :=
  copy.user.objectId = b → t ≤ copy.readAt → a ∈ copy.user.blockedUsers

structure TaskOk (time : ℕ) (recents : Recents) {u : Uid} (task : Task u) : Prop where
  begunAt : task.begunAt < time
  writes : ∀ op todo, task.body = .write op todo → ∀ x ∈ todo, x.Within recents op
  copies : ∀ copies, task.body = .usersRead copies → ∀ copy ∈ copies,
    copy.readAt < time ∧ Lists a b t copy
  reaches : u = a → t ≤ task.begunAt → ¬ task.body.Reaches b (privateChatRoomId a b)

/-- Everything that the client holds was begun or read before `time`; what is not
older than `t` does not reach `b` in the room, and lists `a`. -/
structure ClientOk (time : ℕ) (recents : Recents) {u : Uid} (c : Client u) : Prop where
  copies : ∀ copy ∈ c.copies, copy.readAt < time ∧ Lists a b t copy
  tasks : ∀ task ∈ c.tasks, TaskOk a b t time recents task

end

section
variable {a b : Uid} {t : ℕ} {u : Uid}

theorem TaskOk.mono {time time' : ℕ} {recents recents' : Recents} {task : Task u}
    (h : TaskOk a b t time recents task) (htime : time ≤ time') (hrecents : Evolves recents recents') :
    TaskOk a b t time' recents' task where
  begunAt := h.begunAt.trans_le htime
  writes := fun op todo hbody x hx => hrecents x op (h.writes op todo hbody x hx)
  copies := fun copies hbody copy hcopy =>
    ⟨(h.copies copies hbody copy hcopy).1.trans_le htime, (h.copies copies hbody copy hcopy).2⟩
  reaches := h.reaches

theorem ClientOk.mono {time time' : ℕ} {recents recents' : Recents} {c : Client u}
    (h : ClientOk a b t time recents c) (htime : time ≤ time') (hrecents : Evolves recents recents') :
    ClientOk a b t time' recents' c where
  copies := fun copy hcopy => ⟨(h.copies copy hcopy).1.trans_le htime, (h.copies copy hcopy).2⟩
  tasks := fun task htask => (h.tasks task htask).mono htime hrecents

theorem ClientOk.start {time begunAt : ℕ} {recents : Recents} {v : View u} {bodies : List (TaskBody u)}
    (h : ClientOk a b t time recents v.client)
    (hbodies : ∀ body ∈ bodies, TaskOk a b t time recents (⟨begunAt, body⟩ : Task u)) :
    ClientOk a b t time recents (v.start begunAt bodies).client where
  copies := h.copies
  tasks := by
    intro task htask
    rcases List.mem_append.mp htask with htask | htask
    · exact h.tasks task htask
    · obtain ⟨body, hbody, rfl⟩ := List.mem_map.mp htask
      exact hbodies body hbody

theorem ClientOk.startOne {time begunAt : ℕ} {recents : Recents} {v : View u} {body : TaskBody u}
    (h : ClientOk a b t time recents v.client)
    (hbody : TaskOk a b t time recents (⟨begunAt, body⟩ : Task u)) :
    ClientOk a b t time recents (v.start begunAt [body]).client := by
  apply h.start
  intro body' hmem
  rw [List.mem_singleton.mp hmem]
  exact hbody

def TaskBody.Plain : TaskBody u → Prop
  | usersRead _ => False
  | write .. => False
  | _ => True

theorem taskOk_plain {time begunAt : ℕ} {recents : Recents} {body : TaskBody u}
    (htime : begunAt < time) (hplain : body.Plain)
    (hreaches : u = a → t ≤ begunAt → ¬ body.Reaches b (privateChatRoomId a b)) :
    TaskOk a b t time recents (⟨begunAt, body⟩ : Task u) where
  begunAt := htime
  writes := by
    rintro op todo rfl
    exact hplain.elim
  copies := by
    rintro copies rfl
    exact hplain.elim
  reaches := hreaches

theorem taskOk_usersRead {time begunAt : ℕ} {recents : Recents} {copies : List ProfileCopy}
    (htime : begunAt < time)
    (hcopies : ∀ copy ∈ copies, copy.readAt < time ∧ Lists a b t copy) :
    TaskOk a b t time recents (⟨begunAt, .usersRead copies⟩ : Task u) where
  begunAt := htime
  writes := by
    rintro op todo ⟨⟩
  copies := by
    rintro copies ⟨⟩
    exact hcopies
  reaches := fun _ _ h => h

theorem taskOk_write {time begunAt : ℕ} {recents : Recents} {op : Operation} {todo : List Write}
    (htime : begunAt < time) (htodo : ∀ x ∈ todo, x.Within recents op)
    (hreaches : u = a → t ≤ begunAt → ¬ op.Reaches b (privateChatRoomId a b)) :
    TaskOk a b t time recents (⟨begunAt, .write op todo⟩ : Task u) where
  begunAt := htime
  writes := by
    rintro op todo ⟨⟩
    exact htodo
  copies := by
    rintro copies ⟨⟩
  reaches := hreaches

theorem ClientOk.startQuery {time begunAt : ℕ} {recents : Recents} {v : View u} {op : Operation}
    (h : ClientOk a b t time recents v.client) (htime : begunAt < time)
    (hreaches : u = a → t ≤ begunAt → ¬ op.Reaches b (privateChatRoomId a b)) :
    ClientOk a b t time recents (v.start begunAt [.query op]).client := by
  apply h.startOne
  exact taskOk_plain htime trivial hreaches

theorem ClientOk.updateCurrentUser {time now : ℕ} {recents : Recents} {v : View u}
    {withValues : UserValues} (h : ClientOk a b t time recents v.client) (htime : now < time) :
    ClientOk a b t time recents (v.updateCurrentUserInFirestore now withValues).client := by
  apply h.startOne
  exact taskOk_plain htime trivial fun _ _ hr => hr

theorem allows_chatRoomId {op : Operation} {d : Recent} (h : op.Allows d) :
    d.chatRoomId = op.chatRoomId := by
  cases op with
  | createRecent currentId date c => exact h.1
  | updateRecents currentId date chatRoomId lastMessage => exact h
  | updateExistingRecentWithNewValues chatRoomId values => exact h
  | clearRecentCouter currentId chatRoomId => exact h.1
  | getRecentsFor chatRoomId => exact h.elim

theorem not_reaches_room {op : Operation} {room : String} (hroom : op.chatRoomId ≠ room) :
    ¬ op.Reaches b room := by
  rintro ⟨d, hd, -, hop⟩
  exact hroom ((allows_chatRoomId hop).symm.trans hd)

theorem not_reaches_getRecentsFor {chatRoomId room : String} :
    ¬ (Operation.getRecentsFor chatRoomId).Reaches b room := by
  rintro ⟨d, -, -, h⟩
  exact h

theorem not_reaches_clearRecentCouter {chatRoomId room : String} (hab : a ≠ b) :
    ¬ (Operation.clearRecentCouter a chatRoomId).Reaches b room := by
  rintro ⟨d, -, huser, h⟩
  exact hab (Option.some.inj (h.2.symm.trans huser))

theorem privateChatRoomId_starts_or_ends (a b : Uid) :
    a.toList <+: (privateChatRoomId a b).toList ∨ a.toList <:+ (privateChatRoomId a b).toList := by
  unfold privateChatRoomId
  split_ifs
  · rw [String.toList_append]
    exact Or.inl (List.prefix_append _ _)
  · rw [String.toList_append]
    exact Or.inr (List.suffix_append _ _)

/-- User ids of one length: the private room names its users. -/
theorem privateChatRoomId_inj {c : Uid} (hlength : a.length = c.length)
    (h : privateChatRoomId a c = privateChatRoomId a b) : c = b := by
  have hb : a.length = b.length := by
    have hlengths := congrArg String.length h
    rw [length_privateChatRoomId, length_privateChatRoomId] at hlengths
    omega
  exact Sym2.congr_right.mp ((privateChatRoomId_eq_iff rfl hlength.symm rfl hb.symm).mp h)

theorem not_reaches_startPrivateChat {currentUser : ProfileOf a} {date : String}
    {copy : ProfileCopy} (hlength : a.length = copy.user.objectId.length)
    (hallowed : ¬ checkBlockedStatus a copy.user) (hlists : Lists a b t copy)
    (hread : copy.user.objectId = b → t ≤ copy.readAt) :
    ¬ (Operation.createRecent a date (startPrivateChat currentUser.1 copy.user)).Reaches b
      (privateChatRoomId a b) := by
  apply not_reaches_room
  intro hroom
  have hother : copy.user.objectId = b := by
    apply privateChatRoomId_inj hlength
    rw [← hroom]
    exact congrArg (privateChatRoomId · copy.user.objectId) currentUser.2.symm
  exact hallowed (List.contains_iff_mem.mpr (hlists hother (hread hother)))

theorem not_reaches_restartRecentChat {currentUser : FUser} {currentId : Uid} {date room : String}
    {recent : Recent} (hpush : recent.chatRoomId = room → b ∉ recent.membersToPush) :
    ¬ (Operation.createRecent currentId date (restartRecentChat currentUser recent)).Reaches b
      room := by
  rintro ⟨d, hroom, huser, hrecentRoom, c, hc, hcuser⟩
  obtain rfl : c = b := Option.some.inj (hcuser.symm.trans huser)
  rw [restartRecentChat_members] at hc
  rw [restartRecentChat_chatRoomId] at hrecentRoom
  exact hpush (hrecentRoom.symm.trans hroom) hc

theorem ClientOk.afterSend {time now : ℕ} {recents : Recents} {v : View u} {s : SendState}
    {date : String} (h : ClientOk a b t time recents v.client) (htime : now < time)
    (hcalls : u = a → t ≤ now → ∀ call ∈ s.updateRecents, call.1 ≠ privateChatRoomId a b) :
    ClientOk a b t time recents (v.afterSend now date s).client := by
  have hsame : ClientOk a b t time recents ({ v with messages := s.messages } : View u).client := h
  apply hsame.start
  intro body hbody
  obtain ⟨call, hcall, rfl⟩ := List.mem_map.mp hbody
  refine taskOk_plain htime trivial ?_
  rintro rfl ht
  exact not_reaches_room (hcalls rfl ht call hcall)

theorem sendMessage_ok {time now k : ℕ} {v v' : View u} {device : ChatViewController}
    {uuid : String} {date : Date} {recentDate : String} {args : SendArguments}
    (h : ClientOk a b t time v.recents v.client) (htime : now < time)
    (hkeeps : u = a → t ≤ now → ∀ chat, v.client.chats[k]? = some chat →
      chat.chatRoomId = privateChatRoomId a b → args.IsLocation)
    (hact : v.sendMessage now k device uuid date recentDate args = some v') :
    ClientOk a b t time v'.recents v'.client ∧ Evolves v.recents v'.recents := by
  obtain ⟨chat, s, upload, hchat, hs, hv⟩ := View.sendMessage_cases hact
  obtain ⟨⟨-, calls, hcalls, hroom⟩, -⟩ := ChatViewController.sendMessage_staysIn hs
  have hsent : u = a → t ≤ now → chat.chatRoomId = privateChatRoomId a b →
      s.updateRecents = [] ∧ upload = none := by
    intro hu ht heq
    obtain ⟨text, location, hlocation, rfl⟩ := hkeeps hu ht chat hchat heq
    obtain ⟨-, hnone, hupload⟩ := ChatViewController.sendMessage_location hlocation hs
    exact ⟨hnone, hupload⟩
  have hafter : ClientOk a b t time v.recents (v.afterSend now recentDate s).client := by
    apply h.afterSend htime
    intro hu ht call hcall heq
    have hsame : s.updateRecents = calls := hcalls
    have hchatRoom : call.1 = chat.chatRoomId := hroom call (hsame ▸ hcall)
    rw [(hsent hu ht (hchatRoom.symm.trans heq)).1] at hcall
    exact absurd hcall List.not_mem_nil
  rcases hv with rfl | ⟨up, staysIn, hup, rfl⟩
  · exact ⟨hafter, Evolves.refl _⟩
  · refine ⟨hafter.startOne ?_, Evolves.refl _⟩
    refine taskOk_plain htime trivial fun hu ht heq => ?_
    rw [(hsent hu ht heq).2] at hup
    exact absurd hup nofun

theorem proceed_ok {now begunAt : ℕ} {users : (u : Uid) → ProfileOf u} {answer : Option String}
    {date : String} {body : TaskBody u} {v v' : View u}
    (h : ClientOk a b t (now + 1) v.recents v.client)
    (htask : TaskOk a b t now v.recents (⟨begunAt, body⟩ : Task u))
    (hkeeps : u = a → t ≤ now → ¬ body.Reaches b (privateChatRoomId a b))
    (hblocks : t ≤ now → a ∈ (users b).1.blockedUsers)
    (hact : v.proceed now users begunAt answer date body = some v') :
    ClientOk a b t (now + 1) v'.recents v'.client ∧ Evolves v.recents v'.recents := by
  have hbegun : begunAt < now + 1 := Nat.lt_succ_of_lt htask.begunAt
  have hnot : u = a → t ≤ begunAt → ¬ body.Reaches b (privateChatRoomId a b) := htask.reaches
  cases body with
  | loadUsers ids =>
    simp only [View.proceed] at hact
    split_ifs at hact
    · obtain rfl := Option.some.inj hact
      refine ⟨h.startOne (taskOk_usersRead hbegun ?_), Evolves.refl _⟩
      intro copy hcopy
      obtain ⟨id, -, rfl⟩ := List.mem_map.mp hcopy
      refine ⟨Nat.lt_succ_self now, fun hid ht => ?_⟩
      -- the copy is the stored profile, so after the block it lists `a`
      obtain rfl : id = b := (users id).2.symm.trans hid
      exact hblocks ht
    · obtain rfl := Option.some.inj hact
      exact ⟨h, Evolves.refl _⟩
  | usersRead copies =>
    obtain rfl := Option.some.inj hact
    refine ⟨⟨fun copy hcopy => ?_, h.tasks⟩, Evolves.refl _⟩
    rcases List.mem_append.mp hcopy with hcopy | hcopy
    · exact h.copies copy hcopy
    · obtain ⟨hread, hlists⟩ := htask.copies copies rfl copy hcopy
      exact ⟨Nat.lt_succ_of_lt hread, hlists⟩
  | updateUser withValues userObject =>
    simp only [View.proceed] at hact
    split_ifs at hact
    · obtain rfl := Option.some.inj hact
      have hsame : ClientOk a b t (now + 1) v.recents
        ({ v with profile := v.profile.setValuesForKeys withValues } : View u).client := h
      exact ⟨hsame.startOne (taskOk_plain hbegun trivial fun _ _ hr => hr), Evolves.refl _⟩
    · obtain rfl := Option.some.inj hact
      exact ⟨h, Evolves.refl _⟩
  | userUpdated userObject =>
    obtain rfl := Option.some.inj hact
    exact ⟨⟨h.copies, h.tasks⟩, Evolves.refl _⟩
  | upload chatRoomId upload staysIn =>
    obtain ⟨s, hs, rfl⟩ := Option.map_eq_some_iff.mp hact
    refine ⟨h.afterSend (Nat.lt_succ_self now) ?_, Evolves.refl _⟩
    intro hu ht call hcall
    obtain ⟨-, calls, hcalls, hroom⟩ := staysIn answer _ _ hs
    rw [hcalls] at hcall
    rw [hroom call hcall]
    exact hkeeps hu ht
  | query op =>
    simp only [View.proceed] at hact
    split_ifs at hact
    · obtain rfl := Option.some.inj hact
      have hwrite := taskOk_write hbegun (callback_within op v.recents) hnot
      exact ⟨h.startOne hwrite, Evolves.refl _⟩
    · obtain rfl := Option.some.inj hact
      exact ⟨h, Evolves.refl _⟩
  | write op todo =>
    cases todo with
    | nil =>
      obtain rfl := Option.some.inj hact
      exact ⟨h, Evolves.refl _⟩
    | cons x todo =>
      obtain rfl := Option.some.inj hact
      have hevolves := evolves_apply v.recents x
      have happlied : ClientOk a b t (now + 1) (v.recents.apply x)
          ({ v with recents := v.recents.apply x } : View u).client := h.mono le_rfl hevolves
      refine ⟨happlied.startOne (taskOk_write hbegun ?_ hnot), hevolves⟩
      intro y hy
      exact hevolves y op (htask.writes op (x :: todo) rfl y (List.mem_cons_of_mem _ hy))
  | getMessage path readDate =>
    simp only [View.proceed] at hact
    split_ifs at hact
    · obtain rfl := Option.some.inj hact
      exact ⟨h.startOne (taskOk_plain hbegun trivial hnot), Evolves.refl _⟩
    · obtain rfl := Option.some.inj hact
      exact ⟨h, Evolves.refl _⟩
  | updateMessage path readDate =>
    simp only [View.proceed] at hact
    split at hact
    · obtain rfl := Option.some.inj hact
      exact ⟨h, Evolves.refl _⟩
    · obtain rfl := Option.some.inj hact
      exact ⟨⟨h.copies, h.tasks⟩, Evolves.refl _⟩

theorem act_ok {w : World} {action : ClientAction} {v : View u} (hab : a ≠ b)
    (h : ClientOk a b t w.time w.recents (w.client u)) (hact : w.act u action = some v)
    (hkeeps : u = a → t ≤ w.time → KeepsAway a b t w action)
    (hblocks : t ≤ w.time → Blocks a b w) :
    ClientOk a b t (w.time + 1) v.recents v.client ∧ Evolves w.recents v.recents := by
  have hlater : ClientOk a b t (w.time + 1) w.recents (w.view u).client :=
    h.mono (Nat.le_succ _) (Evolves.refl _)
  have hnow : w.time < w.time + 1 := Nat.lt_succ_self _
  cases action with
  | loadUsers ids =>
    obtain rfl := Option.some.inj hact
    exact ⟨hlater.startOne (taskOk_plain hnow trivial fun _ _ hr => hr), Evolves.refl _⟩
  | startChat i date =>
    obtain ⟨copy, hcopy, hact⟩ := Option.bind_eq_some_iff.mp hact
    split_ifs at hact with hblocked hlength
    · obtain rfl := Option.some.inj hact
      exact ⟨hlater, Evolves.refl _⟩
    · obtain rfl := Option.some.inj hact
      refine ⟨⟨hlater.copies, (hlater.startQuery hnow ?_).tasks⟩, Evolves.refl _⟩
      rintro rfl ht
      exact not_reaches_startPrivateChat hlength hblocked
        (h.copies copy (List.mem_of_getElem? hcopy)).2 (hkeeps rfl ht copy hcopy)
  | blockButtonPressed i =>
    obtain ⟨copy, -, hact⟩ := Option.bind_eq_some_iff.mp hact
    obtain rfl := Option.some.inj hact
    refine ⟨(hlater.updateCurrentUser hnow).startQuery hnow ?_, Evolves.refl _⟩
    exact fun _ _ => not_reaches_getRecentsFor
  | unblock userIdToUnblock =>
    simp only [World.act, View.unblock] at hact
    split_ifs at hact
    obtain rfl := Option.some.inj hact
    exact ⟨hlater.updateCurrentUser hnow, Evolves.refl _⟩
  | updateCurrentUser withValues =>
    simp only [World.act] at hact
    split_ifs at hact
    obtain rfl := Option.some.inj hact
    exact ⟨hlater.updateCurrentUser hnow, Evolves.refl _⟩
  | recentListner =>
    obtain rfl := Option.some.inj hact
    exact ⟨⟨hlater.copies, hlater.tasks⟩, Evolves.refl _⟩
  | didSelectRow i date =>
    obtain ⟨recent, hrecent, hact⟩ := Option.bind_eq_some_iff.mp hact
    obtain rfl := Option.some.inj hact
    refine ⟨⟨hlater.copies, (hlater.startQuery hnow ?_).tasks⟩, Evolves.refl _⟩
    rintro rfl ht
    exact not_reaches_restartRecentChat (hkeeps rfl ht recent hrecent)
  | updatePushMembers i =>
    obtain ⟨recent, hrecent, hact⟩ := Option.bind_eq_some_iff.mp hact
    obtain rfl := Option.some.inj hact
    refine ⟨hlater.startQuery hnow ?_, Evolves.refl _⟩
    rintro rfl ht
    exact not_reaches_room (hkeeps rfl ht recent hrecent)
  | deleteRow i =>
    obtain ⟨recent, -, hact⟩ := Option.bind_eq_some_iff.mp hact
    obtain rfl := Option.some.inj hact
    have hevolves := evolves_apply w.recents (.delete recent.recentId)
    have hdeleted := hlater.mono le_rfl hevolves
    exact ⟨⟨hdeleted.copies, hdeleted.tasks⟩, hevolves⟩
  | sendMessage k device uuid date recentDate args =>
    apply sendMessage_ok hlater hnow _ hact
    rintro rfl ht
    exact hkeeps rfl ht
  | insertInitialLoadMessages k messageId readDate =>
    obtain ⟨chat, hchat, hact⟩ := Option.bind_eq_some_iff.mp hact
    obtain ⟨message, -, hact⟩ := Option.bind_eq_some_iff.mp hact
    obtain ⟨senderId, -, hact⟩ := Option.bind_eq_some_iff.mp hact
    split_ifs at hact
    · obtain rfl := Option.some.inj hact
      refine ⟨hlater.start fun body hbody => ?_, Evolves.refl _⟩
      obtain ⟨userId, hmember, rfl⟩ := List.mem_map.mp hbody
      refine taskOk_plain hnow trivial ?_
      rintro rfl ht ⟨rfl, hroom⟩
      exact hkeeps rfl ht chat hchat hroom hmember
    · obtain rfl := Option.some.inj hact
      exact ⟨hlater, Evolves.refl _⟩
  | deleteMessage k messageId =>
    obtain ⟨chat, -, hact⟩ := Option.bind_eq_some_iff.mp hact
    obtain rfl := Option.some.inj hact
    exact ⟨⟨hlater.copies, hlater.tasks⟩, Evolves.refl _⟩
  | clearRecentCouter k =>
    obtain ⟨chat, -, hact⟩ := Option.bind_eq_some_iff.mp hact
    obtain rfl := Option.some.inj hact
    refine ⟨hlater.startQuery hnow ?_, Evolves.refl _⟩
    rintro rfl _
    exact not_reaches_clearRecentCouter hab
  | backAction k =>
    obtain ⟨v', hclear, hact⟩ := Option.bind_eq_some_iff.mp hact
    obtain ⟨chat, -, hclear⟩ := Option.bind_eq_some_iff.mp hclear
    obtain rfl := Option.some.inj hclear
    obtain rfl := Option.some.inj hact
    refine ⟨⟨hlater.copies, (hlater.startQuery hnow ?_).tasks⟩, Evolves.refl _⟩
    rintro rfl _
    exact not_reaches_clearRecentCouter hab
  | updateGroup op =>
    obtain ⟨rfl, hapart⟩ := View.updateGroup_cases hact
    refine ⟨hlater.startQuery hnow ?_, Evolves.refl _⟩
    rintro rfl ht
    apply not_reaches_room
    intro hroom
    -- a private room of `a` begins or ends with the id of `a`, and a group id does not
    rw [hroom] at hapart
    exact hapart (privateChatRoomId_starts_or_ends u b)
  | proceed i answer date =>
    obtain ⟨task, htask, hact⟩ := Option.bind_eq_some_iff.mp hact
    have hmem := List.mem_of_getElem? htask
    refine proceed_ok ?_ (h.tasks task hmem) ?_ hblocks hact
    · exact ⟨hlater.copies, fun task htask => hlater.tasks task (List.mem_of_mem_eraseIdx htask)⟩
    · rintro rfl ht
      rcases lt_or_ge task.begunAt t with hold | hnew
      · exact hkeeps rfl ht task htask hold
      · exact (h.tasks task hmem).reaches rfl hnew

/-- The other actions only change what the client keeps. -/
def ClientAction.Writes : ClientAction → Prop
  | deleteRow _ => True
  | sendMessage .. => True
  | deleteMessage .. => True
  | proceed .. => True
  | _ => False

theorem act_quiet {w : World} {action : ClientAction} {v : View u} (hact : w.act u action = some v)
    (hquiet : ¬ action.Writes) : v.messages = w.messages ∧ v.recents = w.recents ∧
      v.profile = w.users u := by
  -- what writes is excluded; the others change the client only
  cases action with
  | deleteRow i => exact absurd trivial hquiet
  | sendMessage k device uuid date recentDate args => exact absurd trivial hquiet
  | deleteMessage k messageId => exact absurd trivial hquiet
  | proceed i answer date => exact absurd trivial hquiet
  | loadUsers ids =>
    obtain rfl := Option.some.inj hact
    exact ⟨rfl, rfl, rfl⟩
  | startChat i date =>
    obtain ⟨copy, -, hact⟩ := Option.bind_eq_some_iff.mp hact
    split_ifs at hact
    · obtain rfl := Option.some.inj hact
      exact ⟨rfl, rfl, rfl⟩
    · obtain rfl := Option.some.inj hact
      exact ⟨rfl, rfl, rfl⟩
  | blockButtonPressed i =>
    obtain ⟨copy, -, hact⟩ := Option.bind_eq_some_iff.mp hact
    obtain rfl := Option.some.inj hact
    exact ⟨rfl, rfl, rfl⟩
  | unblock userIdToUnblock =>
    simp only [World.act, View.unblock] at hact
    split_ifs at hact
    obtain rfl := Option.some.inj hact
    exact ⟨rfl, rfl, rfl⟩
  | updateCurrentUser withValues =>
    simp only [World.act] at hact
    split_ifs at hact
    obtain rfl := Option.some.inj hact
    exact ⟨rfl, rfl, rfl⟩
  | recentListner =>
    obtain rfl := Option.some.inj hact
    exact ⟨rfl, rfl, rfl⟩
  | didSelectRow i date =>
    obtain ⟨recent, -, hact⟩ := Option.bind_eq_some_iff.mp hact
    obtain rfl := Option.some.inj hact
    exact ⟨rfl, rfl, rfl⟩
  | updatePushMembers i =>
    obtain ⟨recent, -, hact⟩ := Option.bind_eq_some_iff.mp hact
    obtain rfl := Option.some.inj hact
    exact ⟨rfl, rfl, rfl⟩
  | insertInitialLoadMessages k messageId readDate =>
    obtain ⟨chat, -, hact⟩ := Option.bind_eq_some_iff.mp hact
    obtain ⟨message, -, hact⟩ := Option.bind_eq_some_iff.mp hact
    obtain ⟨senderId, -, hact⟩ := Option.bind_eq_some_iff.mp hact
    split_ifs at hact
    · obtain rfl := Option.some.inj hact
      exact ⟨rfl, rfl, rfl⟩
    · obtain rfl := Option.some.inj hact
      exact ⟨rfl, rfl, rfl⟩
  | clearRecentCouter k =>
    obtain ⟨chat, -, hact⟩ := Option.bind_eq_some_iff.mp hact
    obtain rfl := Option.some.inj hact
    exact ⟨rfl, rfl, rfl⟩
  | backAction k =>
    obtain ⟨v', hclear, hact⟩ := Option.bind_eq_some_iff.mp hact
    obtain ⟨chat, -, hclear⟩ := Option.bind_eq_some_iff.mp hclear
    obtain rfl := Option.some.inj hclear
    obtain rfl := Option.some.inj hact
    exact ⟨rfl, rfl, rfl⟩
  | updateGroup op =>
    obtain ⟨rfl, -⟩ := View.updateGroup_cases hact
    exact ⟨rfl, rfl, rfl⟩

def TaskBody.Writes : TaskBody u → Prop
  | updateUser .. => True
  | upload .. => True
  | write .. => True
  | updateMessage .. => True
  | _ => False

theorem proceed_quiet {now begunAt : ℕ} {users : (u : Uid) → ProfileOf u} {answer : Option String}
    {date : String} {body : TaskBody u} {v v' : View u}
    (hact : v.proceed now users begunAt answer date body = some v') (hquiet : ¬ body.Writes) :
    v'.messages = v.messages ∧ v'.recents = v.recents ∧ v'.profile = v.profile := by
  cases body with
  | updateUser withValues userObject => exact absurd trivial hquiet
  | upload chatRoomId upload staysIn => exact absurd trivial hquiet
  | write op todo => exact absurd trivial hquiet
  | updateMessage path readDate => exact absurd trivial hquiet
  | usersRead copies =>
    obtain rfl := Option.some.inj hact
    exact ⟨rfl, rfl, rfl⟩
  | userUpdated userObject =>
    obtain rfl := Option.some.inj hact
    exact ⟨rfl, rfl, rfl⟩
  | loadUsers ids =>
    simp only [View.proceed] at hact
    split_ifs at hact <;> obtain rfl := Option.some.inj hact <;> exact ⟨rfl, rfl, rfl⟩
  | query op =>
    simp only [View.proceed] at hact
    split_ifs at hact <;> obtain rfl := Option.some.inj hact <;> exact ⟨rfl, rfl, rfl⟩
  | getMessage path readDate =>
    simp only [View.proceed] at hact
    split_ifs at hact <;> obtain rfl := Option.some.inj hact <;> exact ⟨rfl, rfl, rfl⟩

theorem proceed_profile {now begunAt : ℕ} {users : (u : Uid) → ProfileOf u} {answer : Option String}
    {date : String} {body : TaskBody u} {v v' : View u}
    (hact : v.proceed now users begunAt answer date body = some v') : v'.profile = v.profile ∨
      ∃ withValues userObject, body = .updateUser withValues userObject ∧ answer.isSome ∧
        v'.profile = v.profile.setValuesForKeys withValues := by
  by_cases hquiet : body.Writes
  · cases body with
    | updateUser withValues userObject =>
      simp only [View.proceed] at hact
      split_ifs at hact with hanswer
      · obtain rfl := Option.some.inj hact
        exact Or.inr ⟨withValues, userObject, rfl, hanswer, rfl⟩
      · obtain rfl := Option.some.inj hact
        exact Or.inl rfl
    | upload chatRoomId upload staysIn =>
      obtain ⟨s, -, rfl⟩ := Option.map_eq_some_iff.mp hact
      exact Or.inl rfl
    | write op todo =>
      cases todo with
      | nil =>
        obtain rfl := Option.some.inj hact
        exact Or.inl rfl
      | cons x todo =>
        obtain rfl := Option.some.inj hact
        exact Or.inl rfl
    | updateMessage path readDate =>
      simp only [View.proceed] at hact
      split at hact
      · obtain rfl := Option.some.inj hact
        exact Or.inl rfl
      · obtain rfl := Option.some.inj hact
        exact Or.inl rfl
    | _ => exact hquiet.elim
  · exact Or.inl (proceed_quiet hact hquiet).2.2

theorem respected_staysIn {w : World} {v : View a} {room : String} {s s' : SendState}
    (hroom : room ≠ privateChatRoomId a b) (hs : s.StaysIn room s') (hold : s.messages = w.messages)
    (hmessages : v.messages = s'.messages) (hrecents : v.recents = w.recents) :
    Respected a b w (w.next v) := by
  constructor
  · intro path _ hpath
    show v.messages path = _
    rw [hmessages, hs.1 path (hpath ▸ hroom.symm), hold]
  · intro r hr _ _
    exact hrecents ▸ hr

theorem proceed_respected {w : World} {begunAt : ℕ} {answer : Option String} {date : String}
    {body : TaskBody a} {v v' : View a}
    (htask : TaskOk a b t w.time w.recents (⟨begunAt, body⟩ : Task a))
    (hnot : ¬ body.Reaches b (privateChatRoomId a b)) (hmessages : v.messages = w.messages)
    (hrecents : v.recents = w.recents)
    (hact : v.proceed w.time w.users begunAt answer date body = some v') :
    Respected a b w (w.next v') := by
  have hsame : ∀ v'' : View a, v''.messages = v.messages → v''.recents = v.recents →
      Respected a b w (w.next v'') := by
    intro v'' hm hr
    refine ⟨fun path _ _ => congrFun (hm.trans hmessages) path, fun r hr' _ _ => ?_⟩
    exact (hr.trans hrecents) ▸ hr'
  by_cases hquiet : body.Writes
  · cases body with
    | updateUser withValues userObject =>
      simp only [View.proceed] at hact
      split_ifs at hact
      · obtain rfl := Option.some.inj hact
        exact hsame _ rfl rfl
      · obtain rfl := Option.some.inj hact
        exact hsame _ rfl rfl
    | upload chatRoomId upload staysIn =>
      obtain ⟨s, hs, rfl⟩ := Option.map_eq_some_iff.mp hact
      exact respected_staysIn hnot (staysIn answer _ _ hs) hmessages rfl hrecents
    | write op todo =>
      cases todo with
      | nil =>
        obtain rfl := Option.some.inj hact
        exact hsame _ rfl rfl
      | cons x todo =>
        obtain rfl := Option.some.inj hact
        refine ⟨fun path _ _ => congrFun hmessages path, fun r hr huser hroom => ?_⟩
        have hr' : r ∈ (w.recents.apply x).all := hrecents ▸ hr
        -- the operation does not reach `b` in the room, so it may change nothing there
        rcases apply_allowed (htask.writes op (x :: todo) rfl x List.mem_cons_self) r hr' with
          hold | hallowed
        · exact hold
        · exact absurd ⟨r, hroom, huser, hallowed⟩ hnot
    | updateMessage path readDate =>
      simp only [View.proceed] at hact
      split at hact
      · obtain rfl := Option.some.inj hact
        exact hsame _ rfl rfl
      · obtain rfl := Option.some.inj hact
        refine ⟨fun path' hmember hpath => ?_, fun r hr _ _ => hrecents ▸ hr⟩
        have hne : path' ≠ path := by
          rintro rfl
          exact hnot ⟨hmember, hpath⟩
        exact (MessageStore.setData_of_ne hne).trans (congrFun hmessages path')
    | _ => exact hquiet.elim
  · obtain ⟨hm, hr, -⟩ := proceed_quiet hact hquiet
    exact hsame v' hm hr

theorem act_respected {w : World} {action : ClientAction} {v : View a} (hab : a ≠ b)
    (h : ClientOk a b t w.time w.recents (w.client a)) (hact : w.act a action = some v)
    (hkeeps : KeepsAway a b t w action) : Respected a b w (w.next v) := by
  by_cases hquiet : action.Writes
  · cases action with
    | deleteRow i =>
      obtain ⟨recent, -, hact⟩ := Option.bind_eq_some_iff.mp hact
      obtain rfl := Option.some.inj hact
      refine ⟨fun _ _ _ => rfl, fun r hr _ _ => ?_⟩
      have hr' : r ∈ (w.recents.apply (.delete recent.recentId)).all := hr
      rw [Recents.all_delete] at hr'
      exact List.mem_of_mem_filter hr'
    | sendMessage k device uuid date recentDate args =>
      obtain ⟨chat, s, upload, hchat, hs, hv⟩ := View.sendMessage_cases hact
      have hstays := (ChatViewController.sendMessage_staysIn hs).1
      have hsame : v.messages = s.messages ∧ v.recents = w.recents := by
        rcases hv with rfl | ⟨up, staysIn, -, rfl⟩
        · exact ⟨rfl, rfl⟩
        · exact ⟨rfl, rfl⟩
      -- in the room only locations are sent, which store nothing
      by_cases hroom : chat.chatRoomId = privateChatRoomId a b
      · obtain ⟨text, location, hlocation, rfl⟩ := hkeeps chat hchat hroom
        have hnone := (ChatViewController.sendMessage_location hlocation hs).1
        refine ⟨fun path _ _ => congrFun (hsame.1.trans hnone) path, fun r hr _ _ => ?_⟩
        exact hsame.2 ▸ hr
      · exact respected_staysIn hroom hstays rfl hsame.1 hsame.2
    | deleteMessage k messageId =>
      obtain ⟨chat, -, hact⟩ := Option.bind_eq_some_iff.mp hact
      obtain rfl := Option.some.inj hact
      refine ⟨fun path hmember _ => ?_, fun r hr _ _ => hr⟩
      apply Function.update_of_ne
      rintro rfl
      exact hab hmember
    | proceed i answer date =>
      obtain ⟨task, htask, hact⟩ := Option.bind_eq_some_iff.mp hact
      have htaskOk := h.tasks task (List.mem_of_getElem? htask)
      refine proceed_respected htaskOk ?_ rfl rfl hact
      -- older tasks are kept from the room, and newer ones do not reach it
      rcases lt_or_ge task.begunAt t with hold | hnew
      · exact hkeeps task htask hold
      · exact htaskOk.reaches rfl hnew
    | _ => exact hquiet.elim
  · obtain ⟨hmessages, hrecents, -⟩ := act_quiet hact hquiet
    exact ⟨fun path _ _ => congrFun hmessages path, fun r hr _ _ => hrecents ▸ hr⟩

theorem act_profile {w : World} {action : ClientAction} {v : View u}
    (hact : w.act u action = some v) : v.profile = w.users u ∨
      ∃ i answer date task withValues userObject, action = .proceed i answer date ∧
        (w.client u).tasks[i]? = some task ∧ task.body = .updateUser withValues userObject ∧
        answer.isSome ∧ v.profile = (w.users u).setValuesForKeys withValues := by
  by_cases hquiet : action.Writes
  · cases action with
    | deleteRow i =>
      obtain ⟨recent, -, hact⟩ := Option.bind_eq_some_iff.mp hact
      obtain rfl := Option.some.inj hact
      exact Or.inl rfl
    | sendMessage k device uuid date recentDate args =>
      obtain ⟨chat, s, upload, -, -, rfl | ⟨up, staysIn, -, rfl⟩⟩ := View.sendMessage_cases hact
      · exact Or.inl rfl
      · exact Or.inl rfl
    | deleteMessage k messageId =>
      obtain ⟨chat, -, hact⟩ := Option.bind_eq_some_iff.mp hact
      obtain rfl := Option.some.inj hact
      exact Or.inl rfl
    | proceed i answer date =>
      obtain ⟨task, htask, hact⟩ := Option.bind_eq_some_iff.mp hact
      rcases proceed_profile hact with hsame | ⟨withValues, userObject, hbody, hanswer, hprofile⟩
      · exact Or.inl hsame
      · exact Or.inr ⟨i, answer, date, task, withValues, userObject, rfl, htask, hbody, hanswer,
          hprofile⟩
    | _ => exact hquiet.elim
  · exact Or.inl (act_quiet hact hquiet).2.2

end

section
variable {a b : Uid} {t : ℕ}

variable (a b t) in
def Inv (w : World) : Prop := ∀ u, ClientOk a b t w.time w.recents (w.client u)

theorem inv_fresh (profile : (u : Uid) → ProfileOf u) (recents : Recents) (messages : MessageStore) :
    Inv a b t (World.fresh profile recents messages) := fun _ =>
  ⟨fun _ h => absurd h List.not_mem_nil, fun _ h => absurd h List.not_mem_nil⟩

theorem inv_step {w w' : World} {step : Uid × ClientAction} (hab : a ≠ b) (h : Inv a b t w)
    (hstep : w.step step = some w')
    (hkeeps : step.1 = a → t ≤ w.time → KeepsAway a b t w step.2)
    (hblocks : t ≤ w.time → Blocks a b w) : Inv a b t w' := by
  obtain ⟨v, hact, rfl⟩ := Option.map_eq_some_iff.mp hstep
  obtain ⟨hclient, hevolves⟩ := act_ok hab (h step.1) hact hkeeps hblocks
  intro u
  by_cases hu : u = step.1
  · subst hu
    show ClientOk a b t (w.time + 1) v.recents (Function.update w.client step.1 v.client step.1)
    rw [Function.update_self]
    exact hclient
  · show ClientOk a b t (w.time + 1) v.recents (Function.update w.client step.1 v.client u)
    rw [Function.update_of_ne hu]
    exact (h u).mono (Nat.le_succ _) hevolves

theorem blocks_step {w w' : World} {step : Uid × ClientAction} (h : Blocks a b w)
    (hstep : w.step step = some w') (hkeeps : step.1 = b → KeepsBlocked a b w step.2) :
    Blocks a b w' := by
  obtain ⟨v, hact, rfl⟩ := Option.map_eq_some_iff.mp hstep
  obtain ⟨u, action⟩ := step
  show a ∈ (Function.update w.users u v.profile b).1.blockedUsers
  by_cases hu : b = u
  · subst hu
    rw [Function.update_self]
    rcases act_profile hact with hsame | ⟨i, answer, date, task, withValues, userObject, rfl, htask,
      hbody, hanswer, hprofile⟩
    · rw [hsame]
      exact h
    · rw [hprofile]
      show a ∈ withValues.blockedUsers.getD (w.users b).1.blockedUsers
      cases hblocked : withValues.blockedUsers with
      | none => exact h
      | some blocked =>
        exact hkeeps rfl task withValues userObject blocked htask hbody hanswer hblocked
  · rw [Function.update_of_ne hu]
    exact h

theorem time_step {w w' : World} {step : Uid × ClientAction} (hstep : w.step step = some w') :
    w'.time = w.time + 1 := by
  obtain ⟨v, -, rfl⟩ := Option.map_eq_some_iff.mp hstep
  rfl

theorem time_exec {w w' : World} {steps : List (Uid × ClientAction)}
    (h : Runs.exec World.step w steps = some w') : w'.time = w.time + steps.length := by
  induction steps generalizing w with
  | nil =>
    obtain rfl := Option.some.inj h
    rfl
  | cons step steps ih =>
    obtain ⟨w₁, hstep, h⟩ := Option.bind_eq_some_iff.mp h
    rw [ih h, time_step hstep, List.length_cons]
    omega

/-- From the moment at which Firestore has stored the block: as long as `b` keeps `a`
on the list and the client of `a` keeps away from the room, no step of the client of
`a` writes a message document of `b` in the room, or creates or updates a Recent of
`b` there. -/
theorem blocking_respected (a b : Uid) (hab : a ≠ b) (profile : (u : Uid) → ProfileOf u)
    (recents : Recents) (messages : MessageStore) (before after : List (Uid × ClientAction))
    (w₀ : World) (hbefore : Runs.exec World.step (World.fresh profile recents messages) before = some w₀)
    (hblocks : Blocks a b w₀)
    (hkeeps : Runs.Guarded World.step (KeepsBlock a b w₀.time) w₀ after) :
    Runs.Guarded World.step
      (fun w step => step.1 = a → ∀ w', w.step step = some w' → Respected a b w w') w₀ after := by
  have htime : w₀.time = before.length := (time_exec hbefore).trans (Nat.zero_add _)
  -- before the block only the times of tasks and copies matter
  have hearly : Runs.Guarded World.step (fun w _ => w.time < w₀.time)
      (World.fresh profile recents messages) before := by
    intro done step w w' hdone hw _
    have hlength := hdone.length_le
    rw [List.length_append, List.length_singleton] at hlength
    have hw' : w.time = done.length := (time_exec hw).trans (Nat.zero_add _)
    omega
  have hinv : Inv a b w₀.time w₀ :=
    (Runs.always_of_guarded (I := Inv a b w₀.time)
      (fun w step w' h hC hstep => inv_step hab h hstep (fun _ ht => absurd ht (by omega))
        (fun ht => absurd ht (by omega)))
      (inv_fresh profile recents messages) hearly).last hbefore
  have halways : Runs.Always World.step
      (fun w => Inv a b w₀.time w ∧ Blocks a b w) w₀ after := by
    refine Runs.always_of_guarded ?_ ⟨hinv, hblocks⟩ hkeeps
    rintro w step w' ⟨h, hb⟩ hC hstep
    exact ⟨inv_step hab h hstep (fun hu _ => hC.1 hu) fun _ => hb, blocks_step hb hstep hC.2⟩
  refine hkeeps.imp halways ?_
  rintro w ⟨u, action⟩ ⟨h, hb⟩ hC rfl w' hstep
  obtain ⟨v, hact, rfl⟩ := Option.map_eq_some_iff.mp hstep
  exact act_respected hab (h u) hact (hC.1 rfl)

end

def newUser (u : Uid) : ProfileOf u := ⟨FUser.make u (some "") 0 0 "" u "" "" "" "" "" "", rfl⟩

/-- Ann finds Bea in the user list and opens a chat; Bea finds Ann and blocks her, and
both Firestore and Bea's device have stored the block. -/
def chatThenBlock : List (Uid × ClientAction) :=
  [("ann", .loadUsers ["bea"]), ("ann", .proceed 0 (some "") ""), ("ann", .proceed 0 none ""),
    ("ann", .startChat 0 "20190204120000"),
    ("bea", .loadUsers ["ann"]), ("bea", .proceed 0 (some "") ""), ("bea", .proceed 0 none ""),
    ("bea", .blockButtonPressed 0), ("bea", .proceed 0 (some "") ""), ("bea", .proceed 1 none "")]

def newWorld : World := World.fresh newUser Recents.empty fun _ => none

def annSends (a : SendArguments) : Uid × ClientAction :=
  ("ann", .sendMessage 0 ChatViewController.aliceScreen "m1" 0 "20190204120100" a)

/-- Ann's two Recents of the chat have been written as well. -/
def recentsWritten : List (Uid × ClientAction) :=
  [("ann", .proceed 0 (some "") ""), ("ann", .proceed 0 none ""), ("ann", .proceed 0 none ""),
    ("ann", .proceed 0 none "")]

/-- Ann sends a location in the open chat, reads the profiles of Bea and Cid, is
refused a new chat with Bea, and writes to Cid. -/
def annTurnsToCid : List (Uid × ClientAction) :=
  [annSends { location := some kLOCATION }, ("ann", .loadUsers ["bea", "cid"]),
    ("ann", .proceed 0 (some "") ""), ("ann", .proceed 0 none ""),
    ("ann", .startChat 1 "20190204120200"), ("ann", .startChat 2 "20190204120200"),
    ("ann", .sendMessage 1 ChatViewController.aliceScreen "m2" 0 "20190204120300"
      { text := some "hello" })]

/-- An executable part of `KeepsBlock`: only `a` acts, and goes on with nothing that is
older than `t`. -/
def keepsClear (a b : Uid) (t : ℕ) (w : World) (step : Uid × ClientAction) : Bool :=
  decide (step.1 = a) &&
    match step.2 with
    | .loadUsers _ => true
    | .startChat i _ => (w.client a).copies[i]?.all fun copy =>
        decide (copy.user.objectId = b → t ≤ copy.readAt)
    | .sendMessage k _ _ _ _ args => (w.client a).chats[k]?.all fun chat =>
        decide (chat.chatRoomId = privateChatRoomId a b → args.location.isSome ∧
          args.picture = none ∧ args.video = none ∧ args.audio = none)
    | .proceed i _ _ => (w.client a).tasks[i]?.all fun task => decide (t ≤ task.begunAt)
    | _ => false

theorem keepsBlock_of_keepsClear {a b : Uid} {t : ℕ} (hab : a ≠ b) {w : World}
    {step : Uid × ClientAction} (h : keepsClear a b t w step = true) : KeepsBlock a b t w step := by
  obtain ⟨u, action⟩ := step
  obtain ⟨hu, hclear⟩ := Bool.and_eq_true_iff.mp h
  obtain rfl := of_decide_eq_true hu
  refine ⟨fun _ => ?_, fun hb => absurd hb hab⟩
  cases action with
  | loadUsers ids => trivial
  | startChat i date =>
    intro copy hcopy
    exact of_decide_eq_true ((Option.all_eq_true _ _).mp hclear copy hcopy)
  | sendMessage k device uuid date recentDate args =>
    intro chat hchat hroom
    have hargs := of_decide_eq_true ((Option.all_eq_true _ _).mp hclear chat hchat) hroom
    obtain ⟨text, picture, location, video, audio⟩ := args
    obtain ⟨hlocation, rfl, rfl, rfl⟩ := hargs
    exact ⟨text, location, hlocation, rfl⟩
  | proceed i answer date =>
    intro task htask hbegun
    have hlate := of_decide_eq_true ((Option.all_eq_true _ _).mp hclear task htask)
    exact absurd hlate (Nat.not_le_of_lt hbegun)
  | _ => exact absurd hclear Bool.false_ne_true

theorem blocking_respected_turn_to_cid :
    ∃ w₀, Runs.exec World.step newWorld (chatThenBlock ++ recentsWritten) = some w₀ ∧
      (Runs.exec World.step w₀ annTurnsToCid).map
        (fun w => (w.messages ⟨"cid", "anncid", "m2"⟩).isSome) = some true ∧
      Runs.Guarded World.step (fun w step => step.1 = "ann" → ∀ w', w.step step = some w' →
        Respected "ann" "bea" w w') w₀ annTurnsToCid := by
  obtain ⟨w₀, hw₀⟩ :
      ∃ w₀, Runs.exec World.step newWorld (chatThenBlock ++ recentsWritten) = some w₀ := ⟨_, rfl⟩
  refine ⟨w₀, hw₀, ?_, blocking_respected "ann" "bea" (by decide) newUser Recents.empty
    (fun _ => none) (chatThenBlock ++ recentsWritten) annTurnsToCid w₀ hw₀ ?_ ?_⟩
  · obtain rfl := Option.some.inj hw₀
    decide +kernel
  · obtain rfl := Option.some.inj hw₀
    show "ann" ∈ ["ann"]
    decide
  · have hclear : Runs.Guarded World.step
        (fun w step => keepsClear "ann" "bea" w₀.time w step = true) w₀ annTurnsToCid := by
      obtain rfl := Option.some.inj hw₀
      decide +kernel
    intro done step w w' hdone hw hstep
    exact keepsBlock_of_keepsClear (by decide) (hclear done step w w' hdone hw hstep)
/-- Ann's chat is still open, and her next text is stored for Bea. -/
theorem blocking_fails_open_chat :
    ∃ w₀ w₁, Runs.exec World.step newWorld chatThenBlock = some w₀ ∧ Blocks "ann" "bea" w₀ ∧
      w₀.step (annSends { text := some "hello" }) = some w₁ ∧ ¬ Respected "ann" "bea" w₀ w₁ := by
  refine ⟨_, _, rfl, ?_, rfl, fun h => ?_⟩
  · show "ann" ∈ ["ann"]
    decide
  · have hsame := h.1 ⟨"bea", "annbea", "m1"⟩ rfl rfl
    exact absurd (congrArg Option.isSome hsame) (by decide)

end LiChat
