import LiChat.InvitedRecents
import LiChat.MutedMembers

/-!
# Invitations and mutes

Who is notified of a group's messages is stored in the Group document and in every Recent
of the group.  A mute writes to the Recents only; an invitation extends the list of the
Group document and writes the result to the Recents as well.
-/

namespace LiChat
open QueryWrite

namespace InviteUserTableViewController

/-- The Recents that the room had in `s` are still there.  Once the second operation has
queried, each of them has the list of the screen or waits for it. -/
structure Refreshing (vc : InviteUserTableViewController) (s : Recents)
    (c : Config Bool Recents Write) : Prop where
  creating : ∀ snapshot todo, c.stage true = .writing snapshot todo →
    ∀ w ∈ todo, ∃ u, w.Creates vc.creation u
  updating : ∀ snapshot todo, c.stage false = .writing snapshot todo →
    ∀ w ∈ todo, ∃ recentId, w = .updateData recentId vc.newValues
  kept : ∀ r ∈ s.inRoom vc.group.groupId, ∃ r' ∈ c.store.inRoom vc.group.groupId,
    r'.recentId = r.recentId ∧ ∀ snapshot todo, c.stage false = .writing snapshot todo →
      r'.membersToPush = vc.tempMembersToPush ∨ Write.updateData r'.recentId vc.newValues ∈ todo

variable {vc : InviteUserTableViewController} {s : Recents}

theorem refreshing_init (vc : InviteUserTableViewController) (s : Recents) :
    vc.Refreshing s (init s) where
  creating := by rintro _ _ ⟨⟩
  updating := by rintro _ _ ⟨⟩
  kept r hr := ⟨r, hr, rfl, by rintro _ _ ⟨⟩⟩

theorem creates_of_mem_callback {currentId : Uid} {date : String} {snapshot : Recents} {w : Write}
    (h : w ∈ (vc.inviteSystem currentId date).callback true snapshot) :
    ∃ u, w.Creates vc.creation u := by
  obtain ⟨users, -, -, hcreates⟩ := createRecent_creates
    (Operation.callback_createRecent currentId date (show vc.creation.Complete from rfl)
      (snapshot.inRoom vc.group.groupId))
  obtain ⟨u, -, hu⟩ := Rows.exists_of_forall₂ hcreates h
  exact ⟨u, hu⟩

theorem refreshing_step {currentId : Uid} {date : String} {c c' : Config Bool Recents Write}
    {a : Action Bool} (hI : vc.Refreshing s c)
    (h : (vc.inviteSystem currentId date).step c a = some c') : vc.Refreshing s c' := by
  rcases System.step_cases h with ⟨i, rfl, hi, rfl⟩ | ⟨i, snapshot, w, todo, rfl, hi, rfl⟩
  · cases i with
    | true =>
      refine ⟨?_, hI.updating, hI.kept⟩
      rintro _ _ ⟨⟩ w hw
      exact creates_of_mem_callback hw
    | false =>
      obtain ⟨hwrites, htodo⟩ := @updating_query vc currentId date c.store c.store
      refine ⟨hI.creating, ?_, fun r hr => ?_⟩
      · rintro _ _ ⟨⟩
        exact hwrites
      · obtain ⟨r', hr', hid, -⟩ := hI.kept r hr
        refine ⟨r', hr', hid, ?_⟩
        rintro _ _ ⟨⟩
        exact (htodo r' hr').imp_left And.right
  · cases i with
    | true =>
      refine ⟨?_, hI.updating, fun r hr => ?_⟩
      · rintro _ _ ⟨⟩ w' hw'
        exact hI.creating _ _ hi w' (List.mem_cons_of_mem _ hw')
      · -- a created Recent leaves the others as they are
        obtain ⟨r', hr', hkept⟩ := hI.kept r hr
        obtain ⟨u, hu⟩ := hI.creating _ _ hi w List.mem_cons_self
        cases w with
        | updateData recentId values => exact hu.elim
        | delete recentId => exact hu.elim
        | setData recent self =>
          have hmem : r' ∈ (c.store.apply (.setData recent self)).inRoom vc.group.groupId :=
            (Recents.mem_inRoom_setData (hu c.store.next).chatRoomId).mpr (Or.inl hr')
          exact ⟨r', hmem, hkept⟩
    | false =>
      -- the Recent that is written gets the list, the others still wait for it
      obtain ⟨recentId, rfl⟩ := hI.updating _ _ hi w List.mem_cons_self
      refine ⟨hI.creating, ?_, fun r hr => ?_⟩
      · rintro _ _ ⟨⟩ w' hw'
        exact hI.updating _ _ hi w' (List.mem_cons_of_mem _ hw')
      · obtain ⟨d, hd, hid, hlist⟩ := hI.kept r hr
        refine ⟨_, Recents.mem_inRoom_updateData.mpr ⟨d, hd, rfl⟩, ?_, ?_⟩
        · split_ifs
          · exact hid
          · exact hid
        · rintro _ _ ⟨⟩
          by_cases hwritten : d.recentId = recentId
          · rw [if_pos hwritten]
            exact Or.inl rfl
          · rw [if_neg hwritten]
            refine (hlist _ _ hi).imp_right fun hmem => ?_
            rcases List.mem_cons.mp hmem with heq | hmem
            · exact absurd (Write.updateData.inj heq).1 hwritten
            · exact hmem

/-- In whatever order the two operations query and write, in the end every Recent that the
group had before has the list of the screen. -/
theorem membersToPush_of_finished {currentId : Uid} {date : String} {schedule : List (Action Bool)}
    {c : Config Bool Recents Write}
    (hrun : Runs.exec (vc.inviteSystem currentId date).step (QueryWrite.init s) schedule = some c)
    (hfinished : System.Finished c) :
    ∀ r ∈ s.inRoom vc.group.groupId, ∃ r' ∈ c.store.inRoom vc.group.groupId,
      r'.recentId = r.recentId ∧ r'.membersToPush = vc.tempMembersToPush := by
  have hI : vc.Refreshing s c :=
    (Runs.always_of_step (fun _ _ _ hI hstep => refreshing_step hI hstep) (refreshing_init vc s)
      schedule).last hrun
  intro r hr
  obtain ⟨snapshot, hupdated⟩ := hfinished false
  obtain ⟨r', hr', hid, hlist⟩ := hI.kept r hr
  exact ⟨r', hr', hid, (hlist snapshot [] hupdated).resolve_right List.not_mem_nil⟩

end InviteUserTableViewController

/-- The Group documents with their copies and screens, and the Recents. -/
structure GroupRecents (κ : Type) where
  world : GroupWorld κ
  recents : Recents

/-- An operation that runs to its end, or an action on a screen. -/
inductive GroupRecentsAction (κ : Type) where
  | createGroup (groupId subject : String) (currentId : Uid) (memberIds : List Uid)
    (avatar date : String)
  | sendMessage (currentId : Uid) (date groupId lastMessage : String)
  | updatePushMembers (currentId : Uid) (recentId : ℕ)
  | getCurrentGroup (chat : κ) (groupId : String)
  | inviteUsers (chat screen : κ)
  | didSelectRow (screen : κ) (objectId : Uid)
  | updateGroup (screen : κ) (currentId : Uid) (date : String) (schedule : List (Action Bool))

namespace GroupRecents
open InviteUserTableViewController

variable {κ : Type} [DecidableEq κ]

def init : GroupRecents κ := ⟨GroupWorld.init, Recents.empty⟩

/-- The button of a row toggles its owner in the list that the row shows.  The two
operations of an invitation interleave as its schedule says. -/
def step (w : GroupRecents κ) : GroupRecentsAction κ → Option (GroupRecents κ)
  | .createGroup groupId subject currentId memberIds avatar date => do
    let world ← w.world.step (.saveGroup groupId subject currentId memberIds avatar)
    let group ← world.groups groupId
    some ⟨world, (Operation.createRecent currentId date (startGroupChat group)).run w.recents⟩
  | .sendMessage currentId date groupId lastMessage =>
    some { w with
      recents := (Operation.updateRecents currentId date groupId lastMessage).run w.recents }
  | .updatePushMembers currentId recentId => do
    let recent ← (w.recents.loadRecentChats currentId).find? fun r => r.recentId = recentId
    let list := (updatePushMembers currentId recent).membersToPush
    some { w with
      recents := (Operation.updateExistingRecentWithNewValues recent.chatRoomId
        { membersToPush := some list }).run w.recents }
  | .getCurrentGroup chat groupId => do
    let world ← w.world.step (.getCurrentGroup chat groupId)
    some { w with world := world }
  | .inviteUsers chat screen => do
    let world ← w.world.step (.inviteUsers chat screen)
    some { w with world := world }
  | .didSelectRow screen objectId => do
    let world ← w.world.step (.didSelectRow screen objectId)
    some { w with world := world }
  | .updateGroup screen currentId date schedule => do
    let vc ← w.world.screens screen
    let world ← Runs.exec GroupWorld.step w.world
      [.doneButtonPressed screen, .updateData w.world.inFlight.length]
    let c ← Runs.exec (vc.inviteSystem currentId date).step (QueryWrite.init w.recents) schedule
    if System.Finished c then some ⟨world, c.store⟩ else none

/-- After an invitation, every Recent that the group had notifies the same old members as
before, and every invited user. -/
def KeepsMutes (w : GroupRecents κ) : GroupRecentsAction κ → Prop
  | .updateGroup screen currentId date schedule => ∀ vc stored w',
      w.world.screens screen = some vc → w.world.groups vc.group.groupId = some stored →
      w.step (.updateGroup screen currentId date schedule) = some w' →
      ∀ r ∈ w.recents.inRoom vc.group.groupId, ∃ r' ∈ w'.recents.inRoom vc.group.groupId,
        r'.recentId = r.recentId ∧
        (∀ u ∈ stored.members, u ∈ r'.membersToPush ↔ u ∈ r.membersToPush) ∧
        ∀ u ∈ vc.newMemberIds, u ∈ r'.membersToPush
  | _ => True

/-- Every Recent of the group notifies exactly those old members whom the screen knows as
members or has selected. -/
def NobodyMuted (w : GroupRecents κ) : GroupRecentsAction κ → Prop
  | .updateGroup screen _ _ _ => ∀ vc ∈ w.world.screens screen,
      ∀ stored ∈ w.world.groups vc.group.groupId,
      ∀ r ∈ w.recents.inRoom vc.group.groupId, ∀ u ∈ stored.members,
        u ∈ r.membersToPush ↔ u ∈ vc.currentMemberIds ∨ u ∈ vc.newMemberIds
  | _ => True

instance (w : GroupRecents κ) : (a : GroupRecentsAction κ) → Decidable (w.NobodyMuted a)
  | .updateGroup screen _ _ _ => inferInstanceAs (Decidable (∀ vc ∈ w.world.screens screen, _))
  | .createGroup .. | .sendMessage .. | .updatePushMembers .. | .getCurrentGroup ..
  | .inviteUsers .. | .didSelectRow .. => isTrue trivial

theorem updateGroup_cases {w w' : GroupRecents κ} {screen : κ} {currentId : Uid} {date : String}
    {schedule : List (Action Bool)}
    (h : w.step (.updateGroup screen currentId date schedule) = some w') :
    ∃ vc c, w.world.screens screen = some vc ∧
      Runs.exec GroupWorld.step w.world
        [.doneButtonPressed screen, .updateData w.world.inFlight.length] = some w'.world ∧
      Runs.exec (vc.inviteSystem currentId date).step (QueryWrite.init w.recents) schedule = some c ∧
      System.Finished c ∧ w'.recents = c.store := by
  obtain ⟨vc, hvc, h⟩ := Option.bind_eq_some_iff.mp h
  obtain ⟨world, hworld, h⟩ := Option.bind_eq_some_iff.mp h
  obtain ⟨c, hc, h⟩ := Option.bind_eq_some_iff.mp h
  simp only [Option.ite_none_right_eq_some, Option.some.injEq] at h
  obtain ⟨hfinished, rfl⟩ := h
  exact ⟨vc, c, hvc, hworld, hc, hfinished, rfl⟩

theorem pushIsMembers_step {w w' : GroupRecents κ} {a : GroupRecentsAction κ}
    (hI : w.world.PushIsMembers) (h : w.step a = some w') : w'.world.PushIsMembers := by
  cases a with
  | createGroup groupId subject currentId memberIds avatar date =>
    obtain ⟨world, hworld, h⟩ := Option.bind_eq_some_iff.mp h
    obtain ⟨group, -, h⟩ := Option.bind_eq_some_iff.mp h
    obtain rfl := Option.some.inj h
    exact GroupWorld.pushIsMembers_step hI hworld
  | sendMessage currentId date groupId lastMessage =>
    obtain rfl := Option.some.inj h
    exact hI
  | updatePushMembers currentId recentId =>
    obtain ⟨recent, -, h⟩ := Option.bind_eq_some_iff.mp h
    obtain rfl := Option.some.inj h
    exact hI
  | getCurrentGroup chat groupId =>
    obtain ⟨world, hworld, h⟩ := Option.bind_eq_some_iff.mp h
    obtain rfl := Option.some.inj h
    exact GroupWorld.pushIsMembers_step hI hworld
  | inviteUsers chat screen =>
    obtain ⟨world, hworld, h⟩ := Option.bind_eq_some_iff.mp h
    obtain rfl := Option.some.inj h
    exact GroupWorld.pushIsMembers_step hI hworld
  | didSelectRow screen objectId =>
    obtain ⟨world, hworld, h⟩ := Option.bind_eq_some_iff.mp h
    obtain rfl := Option.some.inj h
    exact GroupWorld.pushIsMembers_step hI hworld
  | updateGroup screen currentId date schedule =>
    obtain ⟨vc, c, -, hworld, -, -, -⟩ := updateGroup_cases h
    obtain ⟨world, hdone, hworld⟩ := Option.bind_eq_some_iff.mp hworld
    obtain ⟨world', hupdate, hworld⟩ := Option.bind_eq_some_iff.mp hworld
    obtain hlast := Option.some.inj hworld
    rw [← hlast]
    exact GroupWorld.pushIsMembers_step (GroupWorld.pushIsMembers_step hI hdone) hupdate

theorem pushIsMembers_always (actions : List (GroupRecentsAction κ)) :
    Runs.Always step (fun w : GroupRecents κ => w.world.PushIsMembers) init actions :=
  Runs.always_of_step (fun _ _ _ hI hstep => pushIsMembers_step hI hstep)
    GroupWorld.pushIsMembers_init actions

omit [DecidableEq κ] in
theorem mem_tempMembersToPush {w : GroupRecents κ} {screen : κ} {vc : InviteUserTableViewController}
    (hI : w.world.PushIsMembers) (hvc : w.world.screens screen = some vc) (u : Uid) :
    u ∈ vc.tempMembersToPush ↔ u ∈ vc.currentMemberIds ∨ u ∈ vc.newMemberIds := by
  rw [tempMembersToPush, hI.screens screen vc hvc, List.mem_append]

theorem keepsMutes_iff {w w' : GroupRecents κ} {a : GroupRecentsAction κ}
    (hI : w.world.PushIsMembers) (h : w.step a = some w') : w.KeepsMutes a ↔ w.NobodyMuted a := by
  cases a with
  | updateGroup screen currentId date schedule =>
    constructor
    · intro hkeeps vc hvc stored hstored r hr u hu
      obtain ⟨vc', c, hvc', -, hrun, hfinished, hstore⟩ := updateGroup_cases h
      obtain rfl : vc = vc' := Option.some.inj (hvc.symm.trans hvc')
      obtain ⟨r', hr', hid, hold, -⟩ := hkeeps vc stored w' hvc hstored h r hr
      obtain ⟨r'', hr'', hid', hlist⟩ := membersToPush_of_finished hrun hfinished r hr
      -- the Recent found after the invitation is the one that has the list of the screen
      rw [hstore] at hr'
      obtain rfl : r' = r'' := Recents.eq_of_recentId_eq (Recents.mem_inRoom.mp hr').1
        (Recents.mem_inRoom.mp hr'').1 (hid.trans hid'.symm)
      rw [← hold u hu, hlist, mem_tempMembersToPush hI hvc]
    · intro hnobody vc stored w'' hvc hstored h' r hr
      obtain ⟨vc', c, hvc', -, hrun, hfinished, hstore⟩ := updateGroup_cases h'
      obtain rfl : vc = vc' := Option.some.inj (hvc.symm.trans hvc')
      obtain ⟨r', hr', hid, hlist⟩ := membersToPush_of_finished hrun hfinished r hr
      refine ⟨r', hstore ▸ hr', hid, fun u hu => ?_, fun u hu => ?_⟩
      · rw [hlist, mem_tempMembersToPush hI hvc, hnobody vc hvc stored hstored r hr u hu]
      · rw [hlist, mem_tempMembersToPush hI hvc]
        exact Or.inr hu
  | _ => exact Iff.rfl

/-- After any groups have been created, muted, unmuted and extended: every invitation of a
run leaves the old members of each Recent as they were and notifies the invited users
exactly when each of them finds, in every Recent of the group, those old members whom its
screen knows or has selected.  Where the screen holds the stored group, these are all
members: nobody has muted the group. -/
theorem invitations_keep_mutes_iff (actions : List (GroupRecentsAction κ)) :
    (Runs.Guarded step KeepsMutes (init : GroupRecents κ) actions ↔
      Runs.Guarded step NobodyMuted (init : GroupRecents κ) actions) ∧
    ∀ (w : GroupRecents κ) screen currentId date schedule vc,
      Runs.exec step init actions = some w → w.world.screens screen = some vc →
      w.world.groups vc.group.groupId = some vc.group →
      (w.NobodyMuted (.updateGroup screen currentId date schedule) ↔
        ∀ r ∈ w.recents.inRoom vc.group.groupId, ∀ u ∈ vc.group.members, u ∈ r.membersToPush) := by
  refine ⟨Runs.guarded_iff_of_always (pushIsMembers_always actions) fun _ _ _ hI hstep =>
    keepsMutes_iff hI hstep, ?_⟩
  intro w screen currentId date schedule vc hrun hvc hstored
  have hI : w.world.PushIsMembers := (pushIsMembers_always actions).last hrun
  have hmembers : vc.currentMemberIds = vc.group.members := by
    rw [← hI.screens screen vc hvc, hI.groups vc.group.groupId vc.group hstored]
  constructor
  · intro hnobody r hr u hu
    exact (hnobody vc hvc vc.group hstored r hr u hu).mpr (Or.inl (hmembers ▸ hu))
  · intro hall vc' hvc' stored hstored' r hr u hu
    obtain rfl : vc = vc' := Option.some.inj (hvc.symm.trans hvc')
    obtain rfl : vc.group = stored := Option.some.inj (hstored.symm.trans hstored')
    exact iff_of_true (hall r hr u hu) (Or.inl (hmembers ▸ hu))

def tripCreated : List (GroupRecentsAction Unit) :=
  [.createGroup "trip" "Trip" "ann" ["bea"] "" "20190204120000",
    .sendMessage "ann" "20190204120100" "trip" "hi"]

def carlInvited : List (GroupRecentsAction Unit) :=
  [.getCurrentGroup () "trip", .inviteUsers () (), .didSelectRow () "carl",
    .updateGroup () "ann" "20190204120200"
      [.query true, .query false, .write false, .write true, .write false]]

theorem invitations_keep_mutes_unmuted :
    (Runs.exec step init (tripCreated ++ carlInvited)).isSome ∧
      Runs.Guarded step KeepsMutes init (tripCreated ++ carlInvited) :=
  ⟨by decide +kernel, (invitations_keep_mutes_iff _).1.mpr (by decide +kernel)⟩

/-- Bea has muted the group before Carl is invited: afterwards both of the Recents notify
her again. -/
theorem invitation_undoes_mute :
    (Runs.exec step init (tripCreated ++ [.updatePushMembers "bea" 0])).map (fun w =>
      (w.recents.inRoom "trip").map Recent.membersToPush) = some [["ann"], ["ann"]] ∧
    (Runs.exec step init (tripCreated ++ [.updatePushMembers "bea" 0] ++ carlInvited)).map (fun w =>
      (w.recents.inRoom "trip").map Recent.membersToPush) =
        some [["bea", "ann", "carl"], ["bea", "ann", "carl"], ["bea", "ann", "carl"]] ∧
    ¬ Runs.Guarded step KeepsMutes init
      (tripCreated ++ [.updatePushMembers "bea" 0] ++ carlInvited) :=
  ⟨by decide +kernel, by decide +kernel,
    mt (Runs.guarded_iff_of_always (pushIsMembers_always _) fun _ _ _ hI hstep =>
      keepsMutes_iff hI hstep).mp (by decide +kernel)⟩

end GroupRecents

end LiChat
