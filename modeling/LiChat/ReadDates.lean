import LiChat.ReadReceipts

/-!
# Read dates

A receipt writes kREADDATE whether or not the copy of the message has one, and every chat
that opens asks again for the receipts of the messages that it shows.
-/

namespace LiChat
open ChatScreen Marking

/-- The chats that members have opened, each with the screen of its device, and the message
documents with the requests that are under way. -/
structure ReadingRoom (JSQMessage : Type) where
  chats : List (ReadingScreen JSQMessage × Except Trap (OpenChat JSQMessage))
  firestore : Marking.State MessagePath MessageDictionary String

/-- A member opens a chat, an open chat gets an event, or a request is served.  The calls of
`updateMessage` that come of an action have their own dates. -/
inductive RoomAction (JSQMessage : Type) where
  | openChat (rs : ReadingScreen JSQMessage) (docs : List MessageDocument) (readDates : ℕ → String)
  | event (i : ℕ) (e : ChatEvent) (readDates : ℕ → String)
  | getDocument (n : ℕ)
  | updateData (n : ℕ)

namespace ReadingScreen
variable {JSQMessage : Type} (rs : ReadingScreen JSQMessage)

/-- The requests of the calls of `updateMessage` that an event adds. -/
def receiptsAt (readDates : ℕ → String) (before after : List String) :
    List (MessagePath × String) :=
  (after.drop before.length).zipIdx.flatMap fun call =>
    OutgoingMessages.updateMessage (readDates call.2) call.1 rs.chatRoomId rs.membersToPush

variable {rs}

theorem mem_receiptsAt {readDates : ℕ → String} {before after : List String} {path : MessagePath}
    {readDate : String} : (path, readDate) ∈ rs.receiptsAt readDates before after ↔
      path.memberId ∈ rs.membersToPush ∧ path.chatRoomId = rs.chatRoomId ∧
        ∃ i, (after.drop before.length)[i]? = some path.messageId ∧ readDate = readDates i := by
  simp only [receiptsAt, OutgoingMessages.updateMessage, List.mem_flatMap, List.mem_map,
    Prod.mk.injEq, Prod.exists, List.mk_mem_zipIdx_iff_getElem?]
  constructor
  · rintro ⟨messageId, i, hid, userId, huser, rfl, rfl⟩
    exact ⟨huser, rfl, i, hid, rfl⟩
  · rintro ⟨huser, hroom, i, hid, rfl⟩
    exact ⟨path.messageId, i, hid, path.memberId, huser, by rw [← hroom], rfl⟩

theorem receiptsAt_const (readDate : String) (before after : List String) :
    rs.receiptsAt (fun _ => readDate) before after = rs.receipts readDate before after := by
  rw [receiptsAt, receipts, List.flatMap_def, List.flatMap_def]
  congr 1
  conv_rhs => rw [← List.zipIdx_map_fst 0 (after.drop before.length), List.map_map]
  rfl

end ReadingScreen

namespace ReadingRoom
variable {JSQMessage : Type}

def init (messages : MessageStore) : ReadingRoom JSQMessage := ⟨[], Marking.init messages⟩

def asked (w : ReadingRoom JSQMessage) : RoomAction JSQMessage → List (MessagePath × String)
  | .openChat rs docs readDates => rs.receiptsAt readDates [] (updatedIn (rs.screen.openChat docs))
  | .event i e readDates =>
    match w.chats[i]? with
    | some (rs, chat) =>
      match rs.screen.step chat e with
      | some chat' => rs.receiptsAt readDates (updatedIn chat) (updatedIn chat')
      | none => []
    | none => []
  | .getDocument _ => []
  | .updateData _ => []

def step (w : ReadingRoom JSQMessage) (a : RoomAction JSQMessage) : Option (ReadingRoom JSQMessage) :=
  match a with
  | .openChat rs docs _ =>
    some ⟨w.chats ++ [(rs, rs.screen.openChat docs)], ask (w.asked a) w.firestore⟩
  | .event i e _ => do
    let (rs, chat) ← w.chats[i]?
    let chat' ← rs.screen.step chat e
    some ⟨w.chats.set i (rs, chat'), ask (w.asked a) w.firestore⟩
  | .getDocument n => (query n w.firestore).map fun firestore => { w with firestore := firestore }
  | .updateData n =>
    (write OutgoingMessages.markRead n w.firestore).map fun firestore =>
      { w with firestore := firestore }

def KeepsReadDates (w w' : ReadingRoom JSQMessage) : Prop :=
  KeepsTags MessageDictionary.readDate w.firestore w'.firestore

/-- No copy of a message that the action asks to mark has a date already or is being marked,
and the action asks for it once, but for the same second. -/
def AsksOnce (w : ReadingRoom JSQMessage) (a : RoomAction JSQMessage) : Prop :=
  ∀ path readDate, (path, readDate) ∈ w.asked a → (w.firestore.store path).isSome →
    ∀ readDate', Claims MessageDictionary.readDate w.firestore path readDate' ∨
      (path, readDate') ∈ w.asked a → readDate' = readDate

/-- No two dates are claimed for the copy of a message. -/
def OneDate (w : ReadingRoom JSQMessage) : Prop := Agree MessageDictionary.readDate w.firestore

variable {w w' : ReadingRoom JSQMessage} {a : RoomAction JSQMessage}

/-- The action of the only chat, with one date for its calls of `updateMessage`. -/
def ofReadAction : ReadAction → RoomAction JSQMessage
  | .event e readDate => .event 0 e fun _ => readDate
  | .getDocument n => .getDocument n
  | .updateData n => .updateData n

def single (rs : ReadingScreen JSQMessage) (w : ReadingChat JSQMessage) : ReadingRoom JSQMessage :=
  ⟨[(rs, w.chat)], w.firestore⟩

theorem step_single (rs : ReadingScreen JSQMessage) (w : ReadingChat JSQMessage) (a : ReadAction) :
    step (single rs w) (ofReadAction a) = (rs.step w a).map (single rs) := by
  cases a with
  | event e readDate =>
    cases hchat : rs.screen.step w.chat e with
    | none => simp [single, ofReadAction, step, ReadingScreen.step, hchat]
    | some chat =>
      simp [single, ofReadAction, step, asked, ReadingScreen.step, hchat,
        ReadingScreen.receiptsAt_const]
  | getDocument n =>
    simp only [single, ofReadAction, step, ReadingScreen.step, Option.map_map]
    rfl
  | updateData n =>
    simp only [single, ofReadAction, step, ReadingScreen.step, Option.map_map]
    rfl

theorem exec_single (rs : ReadingScreen JSQMessage) (actions : List ReadAction)
    (w : ReadingChat JSQMessage) :
    Runs.exec step (single rs w) (actions.map ofReadAction) =
      (Runs.exec rs.step w actions).map (single rs) := by
  induction actions generalizing w with
  | nil => rfl
  | cons a actions ih =>
    rw [List.map_cons, Runs.exec_cons, Runs.exec_cons, step_single]
    cases rs.step w a with
    | none => rfl
    | some w' => exact ih w'

theorem step_openChat (rs : ReadingScreen JSQMessage) (docs : List MessageDocument)
    (readDate : String) (messages : MessageStore) :
    step (init messages) (.openChat rs docs fun _ => readDate) =
      some (single rs (rs.openChat docs readDate messages)) := by
  simp only [step, asked, ReadingScreen.receiptsAt_const]
  rfl

theorem mem_asked_openChat {rs : ReadingScreen JSQMessage} {docs : List MessageDocument}
    (hdocs : ∀ d ∈ docs, d.data.legit → Showable rs.screen d.data) {readDates : ℕ → String}
    {path : MessagePath} {readDate : String} :
    (path, readDate) ∈ w.asked (.openChat rs docs readDates) ↔
      path.memberId ∈ rs.membersToPush ∧ path.chatRoomId = rs.chatRoomId ∧
        ∃ i, (incomingIds rs.screen.currentId (firstPage docs))[i]? = some path.messageId ∧
          readDate = readDates i := by
  obtain ⟨s, hs, -⟩ := openChat_ok hdocs
  rw [asked, ReadingScreen.mem_receiptsAt, hs, updatedIn, openChat_receipts hdocs hs]
  rfl

theorem mem_asked_event {i : ℕ} {rs : ReadingScreen JSQMessage} {s s' : OpenChat JSQMessage}
    {e : ChatEvent} (hchat : w.chats[i]? = some (rs, .ok s))
    (he : rs.screen.step (.ok s) e = some (.ok s')) {readDates : ℕ → String}
    {path : MessagePath} {readDate : String} :
    (path, readDate) ∈ w.asked (.event i e readDates) ↔
      path.memberId ∈ rs.membersToPush ∧ path.chatRoomId = rs.chatRoomId ∧
        ∃ n, (incomingIds rs.screen.currentId e.addedMessage)[n]? = some path.messageId ∧
          readDate = readDates n := by
  simp only [asked, hchat, he, ReadingScreen.mem_receiptsAt, updatedIn, step_receipts he,
    List.drop_left]

theorem step_firestore (h : step w a = some w') :
    w'.firestore = ask (w.asked a) w.firestore ∨
      w.asked a = [] ∧ ∃ n, query n w.firestore = some w'.firestore ∨
        write OutgoingMessages.markRead n w.firestore = some w'.firestore := by
  cases a with
  | openChat rs docs readDates =>
    obtain rfl := Option.some.inj h
    exact .inl rfl
  | event i e readDates =>
    obtain ⟨⟨rs, chat⟩, -, h⟩ := Option.bind_eq_some_iff.mp h
    obtain ⟨chat', -, h⟩ := Option.bind_eq_some_iff.mp h
    obtain rfl := Option.some.inj h
    exact .inl rfl
  | getDocument n =>
    obtain ⟨firestore, hquery, rfl⟩ := Option.map_eq_some_iff.mp h
    exact .inr ⟨rfl, n, .inl hquery⟩
  | updateData n =>
    obtain ⟨firestore, hwrite, rfl⟩ := Option.map_eq_some_iff.mp h
    exact .inr ⟨rfl, n, .inr hwrite⟩

theorem readDate_markRead (readDate : String) (m : MessageDictionary) :
    (OutgoingMessages.markRead readDate m).readDate = some readDate := rfl

theorem step_oneDate (hw : OneDate w) (ha : AsksOnce w a) (h : step w a = some w') : OneDate w' := by
  unfold OneDate
  rcases step_firestore h with hask | ⟨-, n, hquery | hwrite⟩
  · rw [hask]
    exact (agree_ask_iff hw).mpr ha
  · exact (agree_query_iff hquery).mpr hw
  · exact hw.write readDate_markRead hwrite

theorem step_keepsReadDates (hw : OneDate w) (h : step w a = some w') : KeepsReadDates w w' := by
  rcases step_firestore h with hask | ⟨-, n, hquery | hwrite⟩
  · refine keepsTags_of_store ?_
    rw [hask]
    rfl
  · exact keepsTags_of_store (query_store hquery)
  · exact hw.keeps_write readDate_markRead hwrite

theorem oneDate_of_step (h : step w a = some w') (hkeeps : KeepsReadDates w w') (hw' : OneDate w') :
    OneDate w := by
  unfold OneDate at hw'
  rcases step_firestore h with hask | ⟨-, n, hquery | hwrite⟩
  · rw [hask] at hw'
    exact agree_of_ask hw'
  · exact (agree_query_iff hquery).mp hw'
  · exact agree_of_write readDate_markRead hwrite hkeeps hw'

theorem asksOnce_of_step (h : step w a = some w') (hw' : OneDate w') : AsksOnce w a := by
  unfold OneDate at hw'
  rcases step_firestore h with hask | ⟨hnone, -⟩
  · rw [hask] at hw'
    exact (agree_ask_iff (agree_of_ask hw')).mp hw'
  · intro path readDate hmem
    rw [hnone] at hmem
    cases hmem

theorem oneDate_init (messages : MessageStore) : OneDate (init messages : ReadingRoom JSQMessage) :=
  agree_init MessageDictionary.readDate messages

theorem keeps_of_steps {actions : List (RoomAction JSQMessage)}
    (h : Runs.Guarded step (fun w a => ∀ w', step w a = some w' → KeepsReadDates w w') w actions) :
    Runs.Keeps step KeepsReadDates w actions := by
  refine (Runs.keeps_iff_guarded (R := KeepsReadDates)
    (C := fun w a => ∀ w', step w a = some w' → KeepsReadDates w w')
    (fun w => keepsTags_of_store rfl) (fun h h' => h.trans h') (fun w a w' hstep => ?_)).mpr h
  constructor
  · intro hkeeps w'' hstep'
    obtain rfl := Option.some.inj (hstep.symm.trans hstep')
    exact hkeeps
  · exact fun hall => hall w' hstep

end ReadingRoom

open ReadingRoom in
/-- Chats of any members are opened, get messages and page, and receipts are served in any
order.  When every copy of a message is asked to be marked only while it has no date and no
mark is under way, all dates are kept; and a run that keeps them, and leaves no request under
way, has asked in this way only. -/
theorem read_dates_kept_iff {JSQMessage : Type} (messages : MessageStore)
    (actions : List (RoomAction JSQMessage)) :
    (Runs.Guarded step AsksOnce (init messages) actions →
      Runs.Keeps step KeepsReadDates (init messages) actions) ∧
    (∀ w, Runs.exec step (init messages) actions = some w → w.firestore.queries = [] →
      w.firestore.writes = [] → Runs.Keeps step KeepsReadDates (init messages) actions →
      Runs.Guarded step AsksOnce (init messages) actions) := by
  constructor
  · intro hguard
    have hone : Runs.Always step OneDate (init messages) actions :=
      Runs.always_of_guarded (fun w a w' hw ha hstep => step_oneDate hw ha hstep)
        (oneDate_init messages) hguard
    apply keeps_of_steps
    -- at each step one date at most is claimed for a copy
    intro pre a w w' hpre hw _ w'' hstep
    exact step_keepsReadDates (hone pre w ((List.prefix_append pre [a]).trans hpre) hw) hstep
  · intro w hrun hqueries hwrites hkeeps
    -- two dates claimed for a copy stay, but nothing is claimed twice at the end
    refine (Runs.guarded_of_debt_of_steps (I := fun _ => True) (B := fun w => ¬ OneDate w)
      (R := KeepsReadDates) (fun _ _ _ _ _ => trivial) ?_ ?_ trivial ?_ hrun ?_).1
    · intro w a w' _ hstep hmiss hw'
      exact hmiss (asksOnce_of_step hstep hw')
    · intro w a w' _ hdebt hstep hkept hw'
      exact hdebt (oneDate_of_step hstep hkept hw')
    · intro pre a t t' hpre ht ht'
      exact hkeeps.single hpre ht ht'
    · exact not_not.mpr (agree_of_finished hqueries hwrites)

/-- Bob opens the chat with the text of Alice at 13:00 and at 13:05. -/
def bobOpensChat (readDate : String) : List (RoomAction JSQMessage) :=
  [.openChat (bobIncoming.readingScreen ["alice", "bob"]) oneText.documents fun _ => readDate,
    .getDocument 0, .getDocument 0, .updateData 0, .updateData 0]

theorem read_date_overwritten :
    ¬ Runs.Keeps ReadingRoom.step ReadingRoom.KeepsReadDates (ReadingRoom.init (storedTexts [0]))
      (bobOpensChat "20190204130000" ++ bobOpensChat "20190204130500") := by
  intro h
  obtain ⟨w, hw, hread, hlater⟩ : ∃ w, Runs.exec ReadingRoom.step
      (ReadingRoom.init (storedTexts [0])) (bobOpensChat "20190204130000") = some w ∧
      w.firestore.store ⟨"alice", "alicebob", "0"⟩ =
        some (OutgoingMessages.markRead "20190204130000" (textOfAlice 0).data) ∧
      (Runs.exec ReadingRoom.step w (bobOpensChat "20190204130500")).any (fun w' =>
        w'.firestore.store ⟨"alice", "alicebob", "0"⟩ =
          some (OutgoingMessages.markRead "20190204130500" (textOfAlice 0).data)) = true :=
    Runs.exists_of_any (by decide +kernel)
  obtain ⟨w', hw', hreread⟩ := Runs.exists_of_any hlater
  obtain ⟨m, hm, hdate⟩ := h (bobOpensChat "20190204130000") (bobOpensChat "20190204130500") w w'
    (List.prefix_refl _) hw hw' ⟨"alice", "alicebob", "0"⟩ _ "20190204130000" hread rfl
  rw [hreread] at hm
  obtain rfl := Option.some.inj hm
  exact absurd hdate (by decide)

end LiChat
