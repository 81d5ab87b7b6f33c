import LiChat.General.Runs
import LiChat.RecentVisibility

/-!
# The partner that a private Recent names

A private Recent shows the name of the other member of its room.  `createRecentItem` takes
it from the first or the last of the users that it is given, and opening a chat from the
list gives it the current user alone.
-/

namespace LiChat

/-- A query on its way: the client, whether a tap on a row has issued it, and what it
does when it is answered. -/
structure RecentQuery where
  client : Bool
  restarts : Bool
  operation : Operation

/-- Two users' clients: the stored Recents, the rows that each client lists, and the
queries and writes that are on their way. -/
structure PrivateClients where
  store : Recents
  rows : Bool → List Recent
  queries : List RecentQuery
  writes : List Write

inductive PrivateAction where
  | startPrivateChat (client : Bool) (date : String)
  | loadRecentChats (client : Bool)
  | didSelectRow (client : Bool) (recentId : ℕ) (date : String)
  | sendMessage (client : Bool) (date lastMessage : String)
  | deleteAction (client : Bool) (recentId : ℕ)
  | blockUser (client : Bool)
  | getDocuments (n : ℕ)
  | write (n : ℕ)

namespace PrivateClients

variable (profile : Bool → FUser)

def currentId (client : Bool) : Uid := (profile client).objectId

/-- The room of the two users, as `blockUser` and the chat compute it. -/
def chatRoomId (client : Bool) : String :=
  privateChatRoomId (currentId profile client) (currentId profile !client)

def init : PrivateClients := ⟨Recents.empty, fun _ => [], [], []⟩

def issue (client restarts : Bool) (operation : Operation) (w : PrivateClients) : PrivateClients :=
  { w with queries := w.queries ++ [⟨client, restarts, operation⟩] }

/-- An action on a client, the delivery of its Recents to the listener, or the arrival of
a query or a write at the store, in any order. -/
def step (w : PrivateClients) : PrivateAction → Option PrivateClients
  | .startPrivateChat client date =>
    some (w.issue client false (.createRecent (currentId profile client) date
      (startPrivateChat (profile client) (profile !client))))
  | .loadRecentChats client =>
    some { w with
      rows := Function.update w.rows client (w.store.loadRecentChats (currentId profile client)) }
  | .didSelectRow client recentId date => do
    let recent ← (w.rows client).find? fun r => r.recentId = recentId
    some (w.issue client true (.createRecent (currentId profile client) date
      (restartRecentChat (profile client) recent)))
  | .sendMessage client date lastMessage =>
    some (w.issue client false (.updateRecents (currentId profile client) date
      (chatRoomId profile client) lastMessage))
  | .deleteAction client recentId => do
    let recent ← (w.rows client).find? fun r => r.recentId = recentId
    some { w with
      rows := Function.update w.rows client ((w.rows client).filter fun r => r.recentId ≠ recentId)
      writes := w.writes ++ [.delete recent.recentId] }
  | .blockUser client => some (w.issue client false (.getRecentsFor (chatRoomId profile client)))
  | .getDocuments n => do
    let query ← w.queries[n]?
    let writes := query.operation.callback (w.store.inRoom query.operation.chatRoomId)
    some { w with queries := w.queries.eraseIdx n, writes := w.writes ++ writes }
  | .write n => do
    let write ← w.writes[n]?
    some { w with store := w.store.apply write, writes := w.writes.eraseIdx n }

def NamesOther (r : Recent) : Prop :=
  r.type = .kPRIVATE → ∃ client, r.userId = some (currentId profile client) ∧
    r.withUserUserID = some (currentId profile !client) ∧
    r.withUserFullName = (profile !client).fullname

def NamesPartners (w : PrivateClients) : Prop := ∀ r ∈ w.store.all, NamesOther profile r

/-- When a query that a tap on a row has issued is answered, the user who has tapped owns
a Recent of the room. -/
def FindsOwn (w : PrivateClients) : PrivateAction → Prop
  | .getDocuments n => ∀ query ∈ w.queries[n]?, query.restarts →
      ∃ r ∈ w.store.inRoom query.operation.chatRoomId, r.userId = some (currentId profile query.client)
  | _ => True

/-- What a write makes of Recents that satisfy `Q` satisfies it again. -/
def Brings (Q : Recent → Prop) : Write → Prop
  | .setData recent _ => ∀ id, Q (recent id)
  | .updateData _ values => ∀ r, Q r → Q (r.updateData values)
  | .delete _ => True

theorem forall_mem_apply {Q : Recent → Prop} {s : Recents} {w : Write} (h : ∀ r ∈ s.all, Q r)
    (hw : Brings Q w) : ∀ r ∈ (s.apply w).all, Q r := by
  intro r hr
  cases w with
  | setData recent self =>
    rw [Recents.all_setData] at hr
    rcases List.mem_append.mp hr with hr | hr
    · exact h r hr
    · rw [List.mem_singleton.mp hr]
      exact hw s.next
  | updateData recentId values =>
    rw [Recents.all_updateData] at hr
    obtain ⟨d, hd, rfl⟩ := List.mem_map.mp hr
    split_ifs
    · exact hw d (h d hd)
    · exact h d hd
  | delete recentId =>
    rw [Recents.all_delete] at hr
    exact h r (List.mem_filter.mp hr).1

/-- Both users are notified, each once. -/
structure OfBoth (r : Recent) : Prop where
  type : r.type = .kPRIVATE
  nodup : r.membersToPush.Nodup
  mem : ∀ u, u ∈ r.membersToPush ↔ ∃ client, u = currentId profile client

/-- The write creates a Recent that does not name the other user. -/
def Misnames : Write → Prop
  | .setData recent _ => ∀ id, ¬ NamesOther profile (recent id)
  | _ => False

structure Names (client named : Bool) (r : Recent) : Prop where
  both : OfBoth profile r
  userId : r.userId = some (currentId profile client)
  withUserUserID : r.withUserUserID = some (currentId profile named)
  withUserFullName : r.withUserFullName = (profile named).fullname

/-- A query of one of the actions: Recents are created for both users, with the current
user first, and alone if a row was tapped. -/
def Issued (query : RecentQuery) : Prop :=
  match query.operation with
  | .createRecent userId _ c =>
    userId = currentId profile query.client ∧ c.type = .kPRIVATE ∧ c.members.Nodup ∧
    (∀ u, u ∈ c.members ↔ ∃ client, u = currentId profile client) ∧
    c.users = some (if query.restarts then [profile query.client]
      else [profile query.client, profile !query.client])
  | .updateRecents .. | .getRecentsFor _ => query.restarts = false
  | _ => False

theorem mem_mapM_flatten {α β : Type} {f : α → Option (List β)} {l : List α} {items : List (List β)}
    (h : l.mapM f = some items) (b : β) :
    b ∈ items.flatten ↔ ∃ a ∈ l, ∃ item, f a = some item ∧ b ∈ item := by
  induction l generalizing items with
  | nil =>
    obtain rfl : [] = items := by simpa using h
    simp
  | cons a l ih =>
    simp only [List.mapM_cons, Option.bind_eq_bind, Option.bind_eq_some_iff] at h
    obtain ⟨item, hitem, rest, hrest, h⟩ := h
    obtain rfl : item :: rest = items := Option.some.inj h
    rw [List.flatten_cons, List.mem_append, ih hrest]
    simp [hitem]

theorem createRecentItem_private {userId date : String} {c : CreateRecent} {users : List FUser}
    {user : FUser} {u : Uid} (htype : c.type = .kPRIVATE) (husers : c.users = some users)
    (hwith : withUser userId users u = some user) :
    ∃ recent self, createRecentItem userId date c u = some [.setData recent self] ∧
      ∀ id, (recent id).userId = some u ∧ (recent id).type = .kPRIVATE ∧
        (recent id).membersToPush = c.members ∧
        (recent id).withUserUserID = some user.objectId ∧
        (recent id).withUserFullName = user.fullname := by
  unfold createRecentItem
  rw [htype]
  simp only [husers, hwith, Option.bind_eq_bind, Option.bind_some]
  exact ⟨_, fun _ => rfl, rfl, fun id => ⟨rfl, rfl, rfl, rfl, rfl⟩⟩

section Callback
variable {profile} (hne : currentId profile true ≠ currentId profile false)

include hne in
theorem currentId_inj {client client' : Bool}
    (h : currentId profile client = currentId profile client') : client = client' := by
  cases client <;> cases client'
  · rfl
  · exact absurd h.symm hne
  · exact absurd h hne
  · rfl

include hne in
/-- A user is given the name of the other one, unless the Recent of a user who has tapped a
row is missing. -/
theorem withUser_issued {query : RecentQuery} (client : Bool) :
    withUser (currentId profile query.client) (if query.restarts then [profile query.client]
      else [profile query.client, profile !query.client]) (currentId profile client) =
      some (profile (if query.restarts ∧ client = query.client then client else !client)) := by
  unfold withUser
  by_cases hclient : client = query.client
  · subst hclient
    cases query.restarts <;> simp
  · have hid : currentId profile client ≠ currentId profile query.client :=
      fun h => hclient (currentId_inj hne h)
    have hother : (!client) = query.client := by
      cases client <;> cases hq : query.client <;> simp_all
    have hrest : ¬ (query.restarts ∧ client = query.client) := fun h => hclient h.2
    rw [if_neg hid, if_neg hrest, hother]
    cases query.restarts <;> rfl

include hne in
theorem namesOther_iff {client named : Bool} {r : Recent} (h : Names profile client named r) :
    NamesOther profile r ↔ named = !client := by
  constructor
  · intro hnames
    obtain ⟨client', huser, hwith, -⟩ := hnames h.both.type
    have hclient := currentId_inj hne (Option.some.inj (h.userId.symm.trans huser))
    have hnamed := currentId_inj hne (Option.some.inj (h.withUserUserID.symm.trans hwith))
    rw [hnamed, hclient]
  · rintro rfl _
    exact ⟨client, h.userId, h.withUserUserID, h.withUserFullName⟩

section Creating
variable {client restarts : Bool} {userId date : String} {c : CreateRecent}

/-- The user whom the new Recent of `owner` names. -/
abbrev named (client restarts owner : Bool) : Bool := if restarts ∧ owner = client then owner else !owner

include hne in
theorem createRecentItem_issued (h : Issued profile ⟨client, restarts, .createRecent userId date c⟩)
    (owner : Bool) : ∃ recent self,
      createRecentItem userId date c (currentId profile owner) = some [.setData recent self] ∧
      ∀ id, Names profile owner (named client restarts owner) (recent id) := by
  obtain ⟨huserId, htype, hnodup, hmem, husers⟩ := h
  obtain rfl : userId = currentId profile client := huserId
  obtain ⟨recent, self, hitem, hrecent⟩ := createRecentItem_private htype husers
    (@withUser_issued profile hne ⟨client, restarts, .createRecent _ date c⟩ owner)
  refine ⟨recent, self, hitem, fun id => ?_⟩
  obtain ⟨huser, htype', hpush, hid, hname⟩ := hrecent id
  exact ⟨⟨htype', hpush ▸ hnodup, hpush ▸ hmem⟩, huser, hid, hname⟩

include hne in
theorem mem_callback_createRecent
    (h : Issued profile ⟨client, restarts, .createRecent userId date c⟩) (snapshot : List Recent)
    (write : Write) : write ∈ (Operation.createRecent userId date c).callback snapshot ↔
      ∃ owner, (∀ r ∈ snapshot, r.userId ≠ some (currentId profile owner)) ∧
        createRecentItem userId date c (currentId profile owner) = some [write] := by
  obtain ⟨-, htype, hnodup, hmem, husers⟩ := id h
  have hcomplete : c.Complete := by
    unfold CreateRecent.Complete
    rw [htype]
    refine ⟨_, husers, ?_⟩
    split_ifs <;> exact List.cons_ne_nil _ _
  obtain ⟨items, hitems, hwrites⟩ :=
    Option.map_eq_some_iff.mp (Operation.callback_createRecent userId date hcomplete snapshot)
  rw [← hwrites, mem_mapM_flatten hitems]
  constructor
  · rintro ⟨u, hu, item, hitem, hwrite⟩
    obtain ⟨hu, hmissing⟩ := ((mem_removeOwners hnodup snapshot).2 u).mp hu
    obtain ⟨owner, rfl⟩ := (hmem u).mp hu
    obtain ⟨recent, self, hitem', -⟩ := createRecentItem_issued hne h owner
    obtain rfl : [Write.setData recent self] = item := Option.some.inj (hitem'.symm.trans hitem)
    exact ⟨owner, hmissing, by rw [List.mem_singleton.mp hwrite, hitem']⟩
  · rintro ⟨owner, hmissing, hitem⟩
    exact ⟨_, ((mem_removeOwners hnodup snapshot).2 _).mpr ⟨(hmem _).mpr ⟨owner, rfl⟩, hmissing⟩, _,
      hitem, List.mem_singleton_self write⟩

end Creating

include hne in
theorem brings_ofBoth {query : RecentQuery} (h : Issued profile query) {snapshot : List Recent}
    {write : Write} (hwrite : write ∈ query.operation.callback snapshot) :
    Brings (OfBoth profile) write := by
  obtain ⟨client, restarts, operation⟩ := query
  cases operation with
  | createRecent userId date c =>
    obtain ⟨owner, -, hitem⟩ := (mem_callback_createRecent hne h snapshot write).mp hwrite
    obtain ⟨recent, self, hitem', hnames⟩ := createRecentItem_issued hne h owner
    obtain rfl := List.singleton_inj.mp (Option.some.inj (hitem.symm.trans hitem'))
    exact fun id => (hnames id).both
  | updateRecents userId date room lastMessage =>
    obtain ⟨r, -, rfl⟩ := List.mem_map.mp hwrite
    exact fun d hd => ⟨hd.type, hd.nodup, hd.mem⟩
  | getRecentsFor room =>
    obtain ⟨r, -, rfl⟩ := List.mem_map.mp hwrite
    trivial
  | clearRecentCouter userId room => exact h.elim
  | updateExistingRecentWithNewValues room values => exact h.elim

include hne in
/-- Unless a tap on a row finds the Recent of its user missing, all Recents name the other
user. -/
theorem brings_namesOther {query : RecentQuery} (h : Issued profile query) {snapshot : List Recent}
    (hown : query.restarts → ∃ r ∈ snapshot, r.userId = some (currentId profile query.client))
    {write : Write} (hwrite : write ∈ query.operation.callback snapshot) :
    Brings (NamesOther profile) write := by
  obtain ⟨client, restarts, operation⟩ := query
  cases operation with
  | createRecent userId date c =>
    obtain ⟨owner, hmissing, hitem⟩ := (mem_callback_createRecent hne h snapshot write).mp hwrite
    obtain ⟨recent, self, hitem', hnames⟩ := createRecentItem_issued hne h owner
    obtain rfl := List.singleton_inj.mp (Option.some.inj (hitem.symm.trans hitem'))
    have hnamed : named client restarts owner = !owner := by
      refine if_neg ?_
      rintro ⟨hrestarts, rfl⟩
      obtain ⟨r, hr, huser⟩ := hown hrestarts
      exact hmissing r hr huser
    exact fun id => (namesOther_iff hne (hnames id)).mpr hnamed
  | updateRecents userId date room lastMessage =>
    obtain ⟨r, -, rfl⟩ := List.mem_map.mp hwrite
    exact fun d hd => hd
  | getRecentsFor room =>
    obtain ⟨r, -, rfl⟩ := List.mem_map.mp hwrite
    trivial
  | clearRecentCouter userId room => exact h.elim
  | updateExistingRecentWithNewValues room values => exact h.elim

include hne in
theorem exists_misnames {query : RecentQuery} (h : Issued profile query) {snapshot : List Recent}
    (hrestarts : query.restarts)
    (hmissing : ∀ r ∈ snapshot, r.userId ≠ some (currentId profile query.client)) :
    ∃ write ∈ query.operation.callback snapshot, Misnames profile write := by
  obtain ⟨client, restarts, operation⟩ := query
  cases operation with
  | createRecent userId date c =>
    obtain ⟨recent, self, hitem, hnames⟩ := createRecentItem_issued hne h client
    refine ⟨.setData recent self, (mem_callback_createRecent hne h snapshot _).mpr
      ⟨client, hmissing, hitem⟩, fun id hother => ?_⟩
    have hnamed := (namesOther_iff hne (hnames id)).mp hother
    rw [named, if_pos ⟨hrestarts, rfl⟩] at hnamed
    cases client <;> exact absurd hnamed (by decide)
  | updateRecents userId date room lastMessage => exact absurd (h.symm.trans hrestarts) Bool.false_ne_true
  | getRecentsFor room => exact absurd (h.symm.trans hrestarts) Bool.false_ne_true
  | clearRecentCouter userId room => exact h.elim
  | updateExistingRecentWithNewValues room values => exact h.elim

end Callback

/-- All Recents and rows are of both users, and so are those on their way. -/
structure Sound (w : PrivateClients) : Prop where
  store : ∀ r ∈ w.store.all, OfBoth profile r
  rows : ∀ client, ∀ r ∈ w.rows client, OfBoth profile r
  queries : ∀ query ∈ w.queries, Issued profile query
  writes : ∀ write ∈ w.writes, Brings (OfBoth profile) write

variable {profile}

theorem sound_init : Sound profile init where
  store := by rintro _ ⟨⟩
  rows := by rintro _ _ ⟨⟩
  queries := by rintro _ ⟨⟩
  writes := by rintro _ ⟨⟩

theorem sound_issue {w : PrivateClients} (hI : Sound profile w) {client restarts : Bool}
    {operation : Operation} (h : Issued profile ⟨client, restarts, operation⟩) :
    Sound profile (w.issue client restarts operation) := by
  refine { hI with queries := fun query hquery => ?_ }
  rcases List.mem_append.mp hquery with hold | hnew
  · exact hI.queries query hold
  · rw [List.mem_singleton.mp hnew]
    exact h

theorem issued_startPrivateChat (hne : currentId profile true ≠ currentId profile false)
    (client : Bool) (date : String) : Issued profile ⟨client, false, .createRecent
      (currentId profile client) date (startPrivateChat (profile client) (profile !client))⟩ := by
  refine ⟨rfl, rfl, ?_, fun u => ?_, rfl⟩
  · have hother : currentId profile client ≠ currentId profile !client := by
      cases client
      · exact hne.symm
      · exact hne
    simpa [startPrivateChat, currentId] using hother
  · cases client <;> simp [startPrivateChat, currentId, or_comm]

theorem issued_restartRecentChat {recent : Recent} (h : OfBoth profile recent) (client : Bool)
    (date : String) : Issued profile ⟨client, true, .createRecent (currentId profile client) date
      (restartRecentChat (profile client) recent)⟩ := by
  refine ⟨rfl, ?_, ?_, fun u => ?_, ?_⟩
  · rw [restartRecentChat_type, h.type]
  · rw [restartRecentChat_members]
    exact h.nodup
  · rw [restartRecentChat_members]
    exact h.mem u
  · unfold restartRecentChat
    rw [h.type]
    rfl

section Steps
variable {w w' : PrivateClients} (hne : currentId profile true ≠ currentId profile false)

include hne in
theorem sound_step {a : PrivateAction} (hI : Sound profile w) (h : step profile w a = some w') :
    Sound profile w' := by
  cases a with
  | startPrivateChat client date =>
    obtain rfl := Option.some.inj h
    exact sound_issue hI (issued_startPrivateChat hne client date)
  | loadRecentChats client =>
    obtain rfl := Option.some.inj h
    refine { hI with rows := (Function.forall_update_iff w.rows
      (p := fun _ rows => ∀ r ∈ rows, OfBoth profile r)).mpr ⟨fun r hr => ?_, fun c _ => hI.rows c⟩ }
    exact hI.store r (Recents.mem_loadRecentChats.mp hr).1
  | didSelectRow client recentId date =>
    obtain ⟨recent, hrecent, h⟩ := Option.bind_eq_some_iff.mp h
    obtain rfl := Option.some.inj h
    exact sound_issue hI (issued_restartRecentChat
      (hI.rows client recent (List.mem_of_find?_eq_some hrecent)) client date)
  | sendMessage client date lastMessage =>
    obtain rfl := Option.some.inj h
    exact sound_issue hI rfl
  | deleteAction client recentId =>
    obtain ⟨recent, -, h⟩ := Option.bind_eq_some_iff.mp h
    obtain rfl := Option.some.inj h
    refine { hI with
      rows := (Function.forall_update_iff w.rows
        (p := fun _ rows => ∀ r ∈ rows, OfBoth profile r)).mpr ⟨fun r hr => ?_, fun c _ => hI.rows c⟩
      writes := fun write hwrite => ?_ }
    · exact hI.rows client r (List.mem_filter.mp hr).1
    · rcases List.mem_append.mp hwrite with hold | hnew
      · exact hI.writes write hold
      · rw [List.mem_singleton.mp hnew]
        trivial
  | blockUser client =>
    obtain rfl := Option.some.inj h
    exact sound_issue hI rfl
  | getDocuments n =>
    obtain ⟨query, hquery, h⟩ := Option.bind_eq_some_iff.mp h
    obtain rfl := Option.some.inj h
    -- what the query brings are Recents of both users, whatever it finds
    have hissued := hI.queries query (List.mem_of_getElem? hquery)
    refine { hI with
      queries := fun q hq => hI.queries q ((List.eraseIdx_sublist _ _).subset hq)
      writes := fun write hwrite => ?_ }
    rcases List.mem_append.mp hwrite with hold | hnew
    · exact hI.writes write hold
    · exact brings_ofBoth hne hissued hnew
  | write n =>
    obtain ⟨write, hwrite, h⟩ := Option.bind_eq_some_iff.mp h
    obtain rfl := Option.some.inj h
    refine { hI with
      store := forall_mem_apply hI.store (hI.writes write (List.mem_of_getElem? hwrite))
      writes := fun write' h' => hI.writes write' ((List.eraseIdx_sublist _ _).subset h') }

theorem step_cases {a : PrivateAction} (h : step profile w a = some w') :
    (w'.store = w.store ∧ ∃ recentIds : List ℕ, w'.writes = w.writes ++ recentIds.map .delete) ∨
    (∃ n query, a = .getDocuments n ∧ w.queries[n]? = some query ∧ w'.store = w.store ∧
      w'.writes = w.writes ++
        query.operation.callback (w.store.inRoom query.operation.chatRoomId)) ∨
    (∃ n write, a = .write n ∧ w.writes[n]? = some write ∧ w'.store = w.store.apply write ∧
      w'.writes = w.writes.eraseIdx n) := by
  cases a with
  | startPrivateChat | loadRecentChats | sendMessage | blockUser =>
    obtain rfl := Option.some.inj h
    exact Or.inl ⟨rfl, [], (List.append_nil _).symm⟩
  | didSelectRow client recentId date =>
    obtain ⟨recent, -, h⟩ := Option.bind_eq_some_iff.mp h
    obtain rfl := Option.some.inj h
    exact Or.inl ⟨rfl, [], (List.append_nil _).symm⟩
  | deleteAction client recentId =>
    obtain ⟨recent, -, h⟩ := Option.bind_eq_some_iff.mp h
    obtain rfl := Option.some.inj h
    exact Or.inl ⟨rfl, [recent.recentId], rfl⟩
  | getDocuments n =>
    obtain ⟨query, hquery, h⟩ := Option.bind_eq_some_iff.mp h
    obtain rfl := Option.some.inj h
    exact Or.inr (Or.inl ⟨n, query, rfl, hquery, rfl, rfl⟩)
  | write n =>
    obtain ⟨write, hwrite, h⟩ := Option.bind_eq_some_iff.mp h
    obtain rfl := Option.some.inj h
    exact Or.inr (Or.inr ⟨n, write, rfl, hwrite, rfl, rfl⟩)

/-- All stored Recents name the other user, and so do those on their way. -/
structure AllName (profile : Bool → FUser) (w : PrivateClients) : Prop where
  store : NamesPartners profile w
  writes : ∀ write ∈ w.writes, Brings (NamesOther profile) write

include hne in
theorem allName_step {a : PrivateAction} (hI : Sound profile w) (hN : AllName profile w)
    (hC : FindsOwn profile w a) (h : step profile w a = some w') : AllName profile w' := by
  rcases step_cases h with ⟨hstore, recentIds, hwrites⟩ | ⟨n, query, rfl, hquery, hstore, hwrites⟩ |
    ⟨n, write, rfl, hwrite, hstore, hwrites⟩
  · refine ⟨by rw [NamesPartners, hstore]; exact hN.store, fun write hwrite => ?_⟩
    rcases List.mem_append.mp (hwrites ▸ hwrite) with hold | hnew
    · exact hN.writes write hold
    · obtain ⟨recentId, -, rfl⟩ := List.mem_map.mp hnew
      trivial
  · refine ⟨by rw [NamesPartners, hstore]; exact hN.store, fun write hwrite => ?_⟩
    rcases List.mem_append.mp (hwrites ▸ hwrite) with hold | hnew
    · exact hN.writes write hold
    · exact brings_namesOther hne (hI.queries query (List.mem_of_getElem? hquery)) (hC query hquery) hnew
  · refine ⟨?_, fun write' h' => hN.writes write' ((List.eraseIdx_sublist _ _).subset (hwrites ▸ h'))⟩
    rw [NamesPartners, hstore]
    exact forall_mem_apply hN.store (hN.writes write (List.mem_of_getElem? hwrite))

/-- A Recent that does not name the other user is on its way. -/
def Misnaming (profile : Bool → FUser) (w : PrivateClients) : Prop :=
  ∃ write ∈ w.writes, Misnames profile write

include hne in
theorem misnaming_of_not_findsOwn {a : PrivateAction} (hI : Sound profile w)
    (h : step profile w a = some w') (hC : ¬ FindsOwn profile w a) : Misnaming profile w' := by
  cases a with
  | getDocuments n =>
    obtain ⟨query, hquery, h⟩ := Option.bind_eq_some_iff.mp h
    obtain rfl := Option.some.inj h
    have hissued := hI.queries query (List.mem_of_getElem? hquery)
    by_cases hrestarts : query.restarts
    · have hmissing : ∀ r ∈ w.store.inRoom query.operation.chatRoomId,
          r.userId ≠ some (currentId profile query.client) := by
        refine fun r hr huser => hC fun query' hquery' _ => ?_
        obtain rfl : query = query' := Option.some.inj (hquery.symm.trans hquery')
        exact ⟨r, hr, huser⟩
      obtain ⟨write, hwrite, hmisnames⟩ := exists_misnames hne hissued hrestarts hmissing
      exact ⟨write, List.mem_append_right _ hwrite, hmisnames⟩
    · refine absurd (fun query' hquery' h' => ?_) hC
      obtain rfl : query = query' := Option.some.inj (hquery.symm.trans hquery')
      exact absurd h' hrestarts
  | _ => exact absurd trivial hC

theorem misnaming_step {a : PrivateAction} (hB : Misnaming profile w)
    (h : step profile w a = some w') (hP : NamesPartners profile w') : Misnaming profile w' := by
  obtain ⟨write, hwrite, hmisnames⟩ := hB
  rcases step_cases h with ⟨-, recentIds, hwrites⟩ | ⟨n, query, rfl, -, -, hwrites⟩ |
    ⟨n, write', rfl, hwrite', hstore, hwrites⟩
  · exact ⟨write, hwrites ▸ List.mem_append_left _ hwrite, hmisnames⟩
  · exact ⟨write, hwrites ▸ List.mem_append_left _ hwrite, hmisnames⟩
  · obtain ⟨m, hm⟩ := List.mem_iff_getElem?.mp hwrite
    by_cases hmn : m = n
    · subst hmn
      obtain rfl : write = write' := Option.some.inj (hm.symm.trans hwrite')
      cases write with
      | setData recent self =>
        have hmem : recent w.store.next ∈ w'.store.all := by
          rw [hstore, Recents.all_setData]
          exact List.mem_append_right _ List.mem_cons_self
        exact absurd (hP _ hmem) (hmisnames _)
      | updateData recentId values => exact hmisnames.elim
      | delete recentId => exact hmisnames.elim
    · refine ⟨write, ?_, hmisnames⟩
      rw [hwrites, List.mem_eraseIdx_iff_getElem?]
      exact ⟨m, hmn, hm⟩

end Steps

/-- For any interleaving of two clients: if every query of a tap on a row finds the Recent
of the user who has tapped, all private Recents name the other user in all states.  In a
run after which no write is on its way, they do so only then. -/
theorem private_recents_name_partner_iff (profile : Bool → FUser)
    (hne : (profile true).objectId ≠ (profile false).objectId) (actions : List PrivateAction) :
    (Runs.Guarded (step profile) (FindsOwn profile) init actions →
      Runs.Always (step profile) (NamesPartners profile) init actions) ∧
    ∀ w, Runs.exec (step profile) init actions = some w → w.writes = [] →
      (Runs.Always (step profile) (NamesPartners profile) init actions ↔
        Runs.Guarded (step profile) (FindsOwn profile) init actions) := by
  have hguarded : Runs.Guarded (step profile) (FindsOwn profile) init actions →
      Runs.Always (step profile) (NamesPartners profile) init actions := by
    intro hC pre w hpre hw
    have hnames : Runs.Always (step profile) (fun w => Sound profile w ∧ AllName profile w) init
        actions :=
      Runs.always_of_guarded
        (fun _ _ _ hI hC hstep =>
          ⟨sound_step hne hI.1 hstep, allName_step hne hI.1 hI.2 hC hstep⟩)
        ⟨sound_init, by rintro _ ⟨⟩, by rintro _ ⟨⟩⟩ hC
    exact (hnames pre w hpre hw).2.store
  refine ⟨hguarded, fun w hrun hempty => ⟨fun hP => ?_, hguarded⟩⟩
  refine (Runs.guarded_of_debt (I := Sound profile) (B := Misnaming profile)
    (fun _ _ _ hI hstep => sound_step hne hI hstep)
    (fun _ _ _ hI hstep hC => misnaming_of_not_findsOwn hne hI hstep hC)
    (fun _ _ _ _ hB hstep hP => misnaming_step hB hstep hP) sound_init hP hrun ?_).1
  rintro ⟨write, hwrite, -⟩
  rw [hempty] at hwrite
  exact absurd hwrite List.not_mem_nil

instance (profile : Bool → FUser) (w : PrivateClients) :
    (a : PrivateAction) → Decidable (FindsOwn profile w a)
  | .getDocuments n => inferInstanceAs (Decidable (∀ query ∈ w.queries[n]?, _ → _))
  | .startPrivateChat .. | .loadRecentChats _ | .didSelectRow .. | .sendMessage ..
  | .deleteAction .. | .blockUser _ | .write _ => isTrue trivial

instance (profile : Bool → FUser) (r : Recent) : Decidable (NamesOther profile r) :=
  inferInstanceAs (Decidable (r.type = .kPRIVATE → ∃ _, _))

instance (profile : Bool → FUser) (w : PrivateClients) : Decidable (NamesPartners profile w) :=
  inferInstanceAs (Decidable (∀ r ∈ w.store.all, NamesOther profile r))

def aliceAndBoris : Bool → FUser
  | true => ChatStore.alice
  | false => ChatStore.boris

/-- Alice starts a chat, sends a text, and sees the row of the chat. -/
def chatListed : List PrivateAction :=
  [.startPrivateChat true "20190204120000", .getDocuments 0, .write 0, .write 0,
    .sendMessage true "20190204120100" "hi", .getDocuments 0, .write 0, .write 0,
    .loadRecentChats true]

def rowTapped : List PrivateAction := [.didSelectRow true 0 "20190204120200", .getDocuments 0]

/-- Boris deletes the chat from his list before Alice taps her row: his Recent is created
again. -/
theorem private_recents_name_partner_restored :
    Runs.Always (step aliceAndBoris) (NamesPartners aliceAndBoris) init
      (chatListed ++ [.loadRecentChats false, .deleteAction false 1, .write 0] ++ rowTapped ++
        [.write 0]) :=
  (private_recents_name_partner_iff aliceAndBoris (by decide) _).1 (by decide +kernel)

def chatBlocked : List PrivateAction := [.blockUser false, .getDocuments 0, .write 0, .write 0]

/-- Both Recents are deleted, and Alice taps her row before that is delivered: the Recent
that she gets names herself. -/
theorem private_recent_names_its_owner :
    (Runs.exec (step aliceAndBoris) init (chatListed ++ chatBlocked ++ rowTapped ++ [.write 0])).map
      (fun w => w.store.all.map fun r => (r.userId, r.withUserUserID, r.withUserFullName)) =
        some [(some "alice", some "alice", "Alice ")] ∧
    ¬ Runs.Always (step aliceAndBoris) (NamesPartners aliceAndBoris) init
      (chatListed ++ chatBlocked ++ rowTapped ++ [.write 0]) := by
  refine ⟨by decide +kernel, fun hP => ?_⟩
  obtain ⟨w, hw, hnot⟩ : ∃ w, Runs.exec (step aliceAndBoris) init
      (chatListed ++ chatBlocked ++ rowTapped ++ [.write 0]) = some w ∧
        ¬ NamesPartners aliceAndBoris w := Runs.exists_of_any (by decide +kernel)
  exact hnot (hP.last hw)

end PrivateClients

end LiChat
