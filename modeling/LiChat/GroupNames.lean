import LiChat.InvitedMutes

/-!
# The name of a group

The name and the icon of a group are stored in its Group document and in every Recent of the
group.  `saveButtonPressed` changes both, and new Recents get the name that the device has.
-/

namespace LiChat
open QueryWrite

/-- What is left when the lists, the message and the counter are taken away. -/
def Recent.named (r : Recent) : ℕ × Option Uid × String × ChatType × String × String :=
  (r.recentId, r.userId, r.chatRoomId, r.type, r.withUserFullName, r.avatar)

/-- The Recent is called as `createRecent` calls it. -/
def Recent.Named (c : CreateRecent) (r : Recent) : Prop :=
  r.chatRoomId = c.chatRoomId ∧ r.type = .kGROUP ∧ r.withUserFullName = c.withUserUserName ∧
    c.avatarOfGroup = some r.avatar

def Write.Names (c : CreateRecent) : Write → Prop
  | .setData recent _ => ∀ id, (recent id).Named c
  | _ => False

theorem createRecent_names {currentId : Uid} {date : String} {c : CreateRecent}
    (htype : c.type = .kGROUP) (havatar : c.avatarOfGroup.isSome) (snapshot : List Recent) :
    ∃ writes, createRecent currentId date c snapshot = some writes ∧ (∀ w ∈ writes, w.Names c) ∧
      writes.length = (removeOwners c.members snapshot).length := by
  obtain ⟨avatar, havatar⟩ := Option.isSome_iff_exists.mp havatar
  unfold createRecent
  generalize removeOwners c.members snapshot = users
  induction users with
  | nil => exact ⟨[], rfl, fun w hw => absurd hw List.not_mem_nil, rfl⟩
  | cons u users ih =>
    obtain ⟨writes, hwrites, hnames, hlength⟩ := ih
    obtain ⟨items, hitems, rfl⟩ := Option.map_eq_some_iff.mp hwrites
    have hitem : ∃ w, createRecentItem currentId date c u = some [w] ∧ w.Names c := by
      unfold createRecentItem
      simp only [htype, havatar]
      exact ⟨_, rfl, fun id => ⟨rfl, rfl, rfl, havatar⟩⟩
    obtain ⟨w, hw, hname⟩ := hitem
    refine ⟨w :: items.flatten, ?_, ?_, ?_⟩
    · rw [List.mapM_cons, hw, hitems]
      rfl
    · exact List.forall_mem_cons.mpr ⟨hname, hnames⟩
    · rw [List.length_cons, List.length_cons, hlength]

theorem Recents.map_named_setData {c : CreateRecent} {w : Write} (hw : w.Names c) (s : Recents) :
    ∃ r, (s.apply w).all = s.all ++ [r] ∧ r.Named c := by
  cases w with
  | setData recent self => exact ⟨_, Recents.all_setData, hw s.next⟩
  | updateData recentId values => exact hw.elim
  | delete recentId => exact hw.elim

theorem Recents.all_foldl_names {c : CreateRecent} {writes : List Write} (h : ∀ w ∈ writes, w.Names c)
    (s : Recents) : ∃ created, (writes.foldl Recents.apply s).all = s.all ++ created ∧
      (∀ r ∈ created, r.Named c) ∧ created.length = writes.length := by
  induction writes generalizing s with
  | nil => exact ⟨[], by simp, fun r hr => absurd hr List.not_mem_nil, rfl⟩
  | cons w writes ih =>
    obtain ⟨r, hr, hname⟩ := Recents.map_named_setData (h w List.mem_cons_self) s
    obtain ⟨created, hall, hnames, hlength⟩ :=
      ih (fun w' hw' => h w' (List.mem_cons_of_mem _ hw')) (s.apply w)
    refine ⟨r :: created, ?_, List.forall_mem_cons.mpr ⟨hname, hnames⟩, ?_⟩
    · rw [List.foldl_cons, hall, hr, List.append_assoc, List.singleton_append]
    · rw [List.length_cons, List.length_cons, hlength]

/-- Run alone, `createRecent` gives the name to as many new Recents as members are without. -/
theorem Operation.all_run_createRecent_names (currentId : Uid) (date : String) {c : CreateRecent}
    (htype : c.type = .kGROUP) (havatar : c.avatarOfGroup.isSome) (s : Recents) :
    ∃ created, ((createRecent currentId date c).run s).all = s.all ++ created ∧
      (∀ r ∈ created, r.Named c) ∧
      created.length = (removeOwners c.members (s.inRoom c.chatRoomId)).length := by
  obtain ⟨writes, hwrites, hnames, hlength⟩ :=
    @createRecent_names currentId date c htype havatar (s.inRoom c.chatRoomId)
  obtain ⟨created, hall, hcreated, hsame⟩ := Recents.all_foldl_names hnames s
  refine ⟨created, ?_, hcreated, hsame.trans hlength⟩
  rw [run, callback, chatRoomId, hwrites]
  exact hall

theorem Recents.map_named_updateData {values : RecentValues} (hname : values.withUserFullName = none)
    (havatar : values.avatar = none) (recentId : ℕ) (s : Recents) :
    (s.apply (.updateData recentId values)).all.map Recent.named = s.all.map Recent.named := by
  rw [Recents.all_updateData, List.map_map]
  refine List.map_congr_left fun d _ => ?_
  by_cases hid : d.recentId = recentId
  · simp [hid, Recent.named, Recent.updateData, hname, havatar]
  · simp [hid]

theorem removeOwners_congr (members : List Uid) {snapshot snapshot' : List Recent}
    (h : snapshot.map Recent.userId = snapshot'.map Recent.userId) :
    removeOwners members snapshot = removeOwners members snapshot' := by
  induction snapshot generalizing members snapshot' with
  | nil =>
    obtain rfl := List.map_eq_nil_iff.mp h.symm
    rfl
  | cons r snapshot ih =>
    obtain ⟨r', rest, rfl, hr, hrest⟩ := List.map_eq_cons_iff.mp h.symm
    rw [removeOwners_cons, removeOwners_cons, hr]
    exact ih _ hrest.symm

theorem Recents.map_userId_inRoom {s s' : Recents}
    (h : s'.all.map Recent.named = s.all.map Recent.named) (room : String) :
    (s'.inRoom room).map Recent.userId = (s.inRoom room).map Recent.userId := by
  have hroom : ∀ t : Recents, (t.inRoom room).map Recent.userId =
      ((t.all.map Recent.named).filter fun n => n.2.2.1 = room).map fun n => n.2.1 := by
    intro t
    rw [List.filter_map, List.map_map]
    rfl
  rw [hroom, hroom, h]

namespace InviteUserTableViewController

/-- The old Recents keep their names.  With the writes to come there are as many new ones as
users were without, and they are called as the screen calls the group. -/
structure Naming (vc : InviteUserTableViewController) (s : Recents)
    (c : Config Bool Recents Write) : Prop where
  created : ∃ created : List Recent, c.store.all.map Recent.named =
      s.all.map Recent.named ++ created.map Recent.named ∧ (∀ r ∈ created, r.Named vc.creation) ∧
    match c.stage true with
    | .waiting => created = []
    | .writing _ todo => (∀ w ∈ todo, w.Names vc.creation) ∧ created.length + todo.length =
        (removeOwners vc.tempMembersToPush (s.inRoom vc.group.groupId)).length
  updating : ∀ snapshot todo, c.stage false = .writing snapshot todo →
    ∀ w ∈ todo, ∃ recentId, w = .updateData recentId vc.newValues

variable {vc : InviteUserTableViewController} {s : Recents}

theorem naming_init (vc : InviteUserTableViewController) (s : Recents) : vc.Naming s (init s) where
  created := ⟨[], (List.append_nil _).symm, fun _ h => absurd h List.not_mem_nil, rfl⟩
  updating := by rintro _ _ ⟨⟩

theorem naming_step {currentId : Uid} {date : String} {c c' : Config Bool Recents Write}
    {a : Action Bool} (hI : vc.Naming s c)
    (h : (vc.inviteSystem currentId date).step c a = some c') : vc.Naming s c' := by
  obtain ⟨created, hall, hnames, hstage⟩ := hI.created
  rcases System.step_cases h with ⟨i, rfl, hi, rfl⟩ | ⟨i, snapshot, w, todo, rfl, hi, rfl⟩
  · cases i with
    | true =>
      rw [hi] at hstage
      obtain rfl : created = [] := hstage
      refine ⟨⟨[], hall, hnames, ?_⟩, hI.updating⟩
      obtain ⟨writes, hwrites, hwritten, hlength⟩ := @createRecent_names currentId date vc.creation rfl
        rfl (c.store.inRoom vc.group.groupId)
      have hcallback : (vc.inviteSystem currentId date).callback true c.store = writes := by
        show (createRecent currentId date vc.creation (c.store.inRoom vc.group.groupId)).getD [] = writes
        rw [hwrites, Option.getD_some]
      -- no Recent has been created yet, so the same members are without one
      have howners := Recents.map_userId_inRoom (hall.trans (List.append_nil _)) vc.group.groupId
      simp only [Function.update_self, hcallback]
      refine ⟨hwritten, ?_⟩
      rw [List.length_nil, zero_add, hlength]
      exact congrArg List.length (removeOwners_congr vc.tempMembersToPush howners)
    | false =>
      refine ⟨⟨created, hall, hnames, hstage⟩, ?_⟩
      rintro _ _ ⟨⟩ w hw
      obtain ⟨r, -, rfl⟩ := List.mem_map.mp hw
      exact ⟨r.recentId, rfl⟩
  · cases i with
    | true =>
      rw [hi] at hstage
      obtain ⟨htodo, hlength⟩ := hstage
      obtain ⟨r, hr, hname⟩ := Recents.map_named_setData (htodo w List.mem_cons_self) c.store
      refine ⟨⟨created ++ [r], ?_, ?_, ?_⟩, hI.updating⟩
      · simp only [recentSystem]
        rw [hr, List.map_append, hall, List.append_assoc, ← List.map_append]
      · exact fun r' hr' => (List.mem_append.mp hr').elim (hnames r') fun hlast => by
          rw [List.mem_singleton.mp hlast]
          exact hname
      · simp only [Function.update_self]
        refine ⟨fun w' hw' => htodo w' (List.mem_cons_of_mem _ hw'), ?_⟩
        rw [← hlength, List.length_append, List.length_singleton, List.length_cons]
        omega
    | false =>
      obtain ⟨recentId, rfl⟩ := hI.updating _ _ hi w List.mem_cons_self
      refine ⟨⟨created, ?_, hnames, hstage⟩, ?_⟩
      · exact (Recents.map_named_updateData rfl rfl recentId c.store).trans hall
      · rintro _ _ ⟨⟩ w' hw'
        exact hI.updating _ _ hi w' (List.mem_cons_of_mem _ hw')

/-- In whatever order the two operations query and write: the old Recents keep their names,
and all users who were without one get one with the name that the screen has. -/
theorem named_of_finished {currentId : Uid} {date : String} {schedule : List (Action Bool)}
    {c : Config Bool Recents Write}
    (hrun : Runs.exec (vc.inviteSystem currentId date).step (QueryWrite.init s) schedule = some c)
    (hfinished : System.Finished c) : ∃ created : List Recent, c.store.all.map Recent.named =
        s.all.map Recent.named ++ created.map Recent.named ∧ (∀ r ∈ created, r.Named vc.creation) ∧
      created.length = (removeOwners vc.tempMembersToPush (s.inRoom vc.group.groupId)).length := by
  have hI : vc.Naming s c := (Runs.always_of_step (fun _ _ _ hI hstep => naming_step hI hstep)
    (naming_init vc s) schedule).last hrun
  obtain ⟨created, hall, hnames, hstage⟩ := hI.created
  obtain ⟨snapshot, hcreated⟩ := hfinished true
  rw [hcreated] at hstage
  exact ⟨created, hall, hnames, hstage.2⟩

end InviteUserTableViewController

/-- An action of a group, a change of its name and icon, or an operation on its Recents. -/
inductive GroupNameAction (κ : Type) where
  | group (a : GroupRecentsAction κ)
  | saveButtonPressed (chat : κ) (name avatar : String)
  | restartRecentChat (currentUser : FUser) (date : String) (recentId : ℕ)
  | clearRecentCouter (currentId : Uid) (groupId : String)
  | deleteRecentChat (recentId : ℕ)

namespace GroupRecents
open InviteUserTableViewController

variable {κ : Type} [DecidableEq κ]

/-- A row that is tapped is one of the current user's list. -/
def nameStep (w : GroupRecents κ) : GroupNameAction κ → Option (GroupRecents κ)
  | .group a => w.step a
  | .saveButtonPressed chat name avatar => do
    let group ← w.world.chats chat
    let world ← w.world.step (.saveButtonPressed chat name avatar)
    some ⟨world, (Operation.updateExistingRecentWithNewValues group.groupId
      { withUserFullName := some name, avatar := some avatar }).run w.recents⟩
  | .restartRecentChat currentUser date recentId => do
    let recent ← (w.recents.loadRecentChats currentUser.objectId).find? fun r => r.recentId = recentId
    some { w with
      recents := (Operation.createRecent currentUser.objectId date
        (restartRecentChat currentUser recent)).run w.recents }
  | .clearRecentCouter currentId groupId =>
    some { w with recents := (Operation.clearRecentCouter currentId groupId).run w.recents }
  | .deleteRecentChat recentId => some { w with recents := w.recents.apply (.delete recentId) }

def Called (g : Group) (r : Recent) : Prop := r.withUserFullName = g.name ∧ r.avatar = g.avatar

/-- All Recents of all groups are called as their groups are. -/
def NamesAgree (w : GroupRecents κ) : Prop :=
  ∀ groupId g, w.world.groups groupId = some g → ∀ r ∈ w.recents.inRoom groupId, Called g r

/-- An invitation that gives Recents to users has the name and the icon of the Group
document. -/
def InvitesByName (w : GroupRecents κ) : GroupNameAction κ → Prop
  | .group (.updateGroup screen _ _ _) => ∀ vc ∈ w.world.screens screen,
      ∀ stored ∈ w.world.groups vc.group.groupId,
        removeOwners vc.tempMembersToPush (w.recents.inRoom vc.group.groupId) = [] ∨
          vc.group.name = stored.name ∧ vc.group.avatar = stored.avatar
  | _ => True

def OfGroups (w : GroupRecents κ) : Prop :=
  ∀ r ∈ w.recents.all, r.type = .kGROUP ∧ (w.world.groups r.chatRoomId).isSome

def SameNames (world world' : GroupWorld κ) : Prop :=
  ∀ groupId, (world'.groups groupId).map (fun g => (g.name, g.avatar)) =
    (world.groups groupId).map fun g => (g.name, g.avatar)

variable {w w' : GroupRecents κ}

omit [DecidableEq κ] in
theorem SameNames.exists {world world' : GroupWorld κ} (h : SameNames world world')
    {groupId : String} {g' : Group} (hg' : world'.groups groupId = some g') :
    ∃ g, world.groups groupId = some g ∧ g'.name = g.name ∧ g'.avatar = g.avatar := by
  have heq := h groupId
  rw [hg'] at heq
  obtain ⟨g, hg, hsame⟩ := Option.map_eq_some_iff.mp heq.symm
  obtain ⟨hname, havatar⟩ := Prod.mk.inj hsame
  exact ⟨g, hg, hname.symm, havatar.symm⟩

omit [DecidableEq κ] in
theorem SameNames.isSome {world world' : GroupWorld κ} (h : SameNames world world')
    (groupId : String) : (world'.groups groupId).isSome = (world.groups groupId).isSome := by
  rw [← Option.isSome_map (f := fun g : Group => (g.name, g.avatar)), h groupId, Option.isSome_map]

theorem called_of_named {g g' : Group} {r r' : Recent} (h : r'.named = r.named)
    (hname : g'.name = g.name) (havatar : g'.avatar = g.avatar) : Called g' r' ↔ Called g r := by
  simp only [Recent.named, Prod.mk.injEq] at h
  rw [Called, Called, h.2.2.2.2.1, h.2.2.2.2.2, hname, havatar]

omit [DecidableEq κ] in
theorem agree_of_old (hworld : SameNames w.world w'.world)
    (hold : ∀ r' ∈ w'.recents.all, ∃ r ∈ w.recents.all, r'.named = r.named) (hI : OfGroups w)
    (hP : NamesAgree w) : OfGroups w' ∧ NamesAgree w' := by
  constructor
  · intro r' hr'
    obtain ⟨r, hr, hnamed⟩ := hold r' hr'
    simp only [Recent.named, Prod.mk.injEq] at hnamed
    rw [hnamed.2.2.2.1, hnamed.2.2.1, hworld.isSome]
    exact hI r hr
  · intro groupId g' hg' r' hr'
    obtain ⟨hr', hroom⟩ := Recents.mem_inRoom.mp hr'
    obtain ⟨g, hg, hname, havatar⟩ := hworld.exists hg'
    obtain ⟨r, hr, hnamed⟩ := hold r' hr'
    rw [called_of_named hnamed hname havatar]
    have hsame : r'.chatRoomId = r.chatRoomId := congrArg (fun n => n.2.2.1) hnamed
    exact hP groupId g hg r (Recents.mem_inRoom.mpr ⟨hr, hsame ▸ hroom⟩)

omit [DecidableEq κ] in
theorem agree_iff_of_created (hworld : SameNames w.world w'.world) {c : CreateRecent}
    {created : List Recent}
    (hall : w'.recents.all.map Recent.named =
      w.recents.all.map Recent.named ++ created.map Recent.named)
    (hcreated : ∀ r ∈ created, r.Named c) {g : Group} (hg : w.world.groups c.chatRoomId = some g)
    (hI : OfGroups w) (hP : NamesAgree w) :
    OfGroups w' ∧ (NamesAgree w' ↔
      created = [] ∨ c.withUserUserName = g.name ∧ c.avatarOfGroup = some g.avatar) := by
  have hcases : ∀ r' ∈ w'.recents.all, (∃ r ∈ w.recents.all, r'.named = r.named) ∨
      ∃ r ∈ created, r'.named = r.named := by
    intro r' hr'
    have hmem := List.mem_map_of_mem (f := Recent.named) hr'
    rw [hall, List.mem_append] at hmem
    refine hmem.imp (fun h => ?_) fun h => ?_
    · obtain ⟨r, hr, hnamed⟩ := List.mem_map.mp h
      exact ⟨r, hr, hnamed.symm⟩
    · obtain ⟨r, hr, hnamed⟩ := List.mem_map.mp h
      exact ⟨r, hr, hnamed.symm⟩
  have hnew : ∀ r ∈ created, ∃ r' ∈ w'.recents.all, r'.named = r.named := by
    intro r hr
    have hmem : r.named ∈ w'.recents.all.map Recent.named :=
      hall ▸ List.mem_append_right _ (List.mem_map_of_mem hr)
    exact List.mem_map.mp hmem
  obtain ⟨g', hg', hgg'⟩ : ∃ g', w'.world.groups c.chatRoomId = some g' ∧
      g'.name = g.name ∧ g'.avatar = g.avatar := by
    have hsome : (w'.world.groups c.chatRoomId).isSome := by
      rw [hworld.isSome, hg]
      rfl
    obtain ⟨g', hg'⟩ := Option.isSome_iff_exists.mp hsome
    obtain ⟨g₀, hg₀, hsame⟩ := hworld.exists hg'
    obtain rfl := Option.some.inj (hg.symm.trans hg₀)
    exact ⟨g', hg', hsame⟩
  -- any one of the new Recents tells whether they are called as the group is
  refine ⟨fun r' hr' => ?_, fun hP' => ?_, fun hname groupId g₁ hg₁ r' hr' => ?_⟩
  · rcases hcases r' hr' with ⟨r, hr, hnamed⟩ | ⟨r, hr, hnamed⟩
    · simp only [Recent.named, Prod.mk.injEq] at hnamed
      rw [hnamed.2.2.2.1, hnamed.2.2.1, hworld.isSome]
      exact hI r hr
    · simp only [Recent.named, Prod.mk.injEq] at hnamed
      obtain ⟨hroom, htype, -, -⟩ := hcreated r hr
      rw [hnamed.2.2.2.1, hnamed.2.2.1, hroom, hg']
      exact ⟨htype, rfl⟩
  · rcases List.eq_nil_or_concat created with hnil | ⟨rest, r, hlast⟩
    · exact .inl hnil
    · have hr : r ∈ created := by
        rw [hlast, List.concat_eq_append]
        exact List.mem_append_right _ List.mem_cons_self
      obtain ⟨hroom, -, hname, havatar⟩ := hcreated r hr
      obtain ⟨r', hr', hnamed⟩ := hnew r hr
      have hroom' : r'.chatRoomId = c.chatRoomId :=
        (congrArg (fun n => n.2.2.1) hnamed).trans hroom
      have hcalled := hP' c.chatRoomId g' hg' r' (Recents.mem_inRoom.mpr ⟨hr', hroom'⟩)
      obtain ⟨hcname, hcavatar⟩ := (called_of_named hnamed rfl rfl).mp hcalled
      exact .inr ⟨hname.symm.trans (hcname.trans hgg'.1),
        havatar.trans (congrArg some (hcavatar.trans hgg'.2))⟩
  · obtain ⟨hr', hroom⟩ := Recents.mem_inRoom.mp hr'
    rcases hcases r' hr' with ⟨r, hr, hnamed⟩ | ⟨r, hr, hnamed⟩
    · obtain ⟨g₀, hg₀, hname₀, havatar₀⟩ := hworld.exists hg₁
      rw [called_of_named hnamed hname₀ havatar₀]
      have hsame : r'.chatRoomId = r.chatRoomId := congrArg (fun n => n.2.2.1) hnamed
      exact hP groupId g₀ hg₀ r (Recents.mem_inRoom.mpr ⟨hr, hsame ▸ hroom⟩)
    · obtain ⟨hroomr, -, hnamer, havatarr⟩ := hcreated r hr
      have hsame : r'.chatRoomId = c.chatRoomId :=
        (congrArg (fun n => n.2.2.1) hnamed).trans hroomr
      obtain rfl : groupId = c.chatRoomId := hroom.symm.trans hsame
      obtain rfl := Option.some.inj (hg'.symm.trans hg₁)
      rcases hname with rfl | ⟨hcname, hcavatar⟩
      · exact absurd hr List.not_mem_nil
      · rw [called_of_named hnamed rfl rfl]
        exact ⟨hnamer.trans (hcname.trans hgg'.1.symm),
          (Option.some.inj (havatarr.symm.trans hcavatar)).trans hgg'.2.symm⟩

omit [DecidableEq κ] in
theorem agree_of_map {f : Recent → Recent} (hf : ∀ d, (f d).named = d.named)
    (hworld : SameNames w.world w'.world) (hall : w'.recents.all = w.recents.all.map f)
    (hI : OfGroups w) (hP : NamesAgree w) : OfGroups w' ∧ NamesAgree w' := by
  refine agree_of_old hworld (fun r' hr' => ?_) hI hP
  obtain ⟨r, hr, rfl⟩ := List.mem_map.mp (hall ▸ hr')
  exact ⟨r, hr, hf r⟩

theorem named_updateData {values : RecentValues} (hname : values.withUserFullName = none)
    (havatar : values.avatar = none) (r : Recent) : (r.updateData values).named = r.named := by
  simp [Recent.named, Recent.updateData, hname, havatar]

omit [DecidableEq κ] in
theorem sameNames_of_groups {world world' : GroupWorld κ} (h : world'.groups = world.groups) :
    SameNames world world' := fun groupId => by rw [h]

theorem agree_createGroup {groupId subject : String} {currentId : Uid} {memberIds : List Uid}
    {avatar date : String} (hI : OfGroups w) (hP : NamesAgree w)
    (h : w.step (.createGroup groupId subject currentId memberIds avatar date) = some w') :
    OfGroups w' ∧ NamesAgree w' := by
  obtain ⟨world, hworld, h⟩ := Option.bind_eq_some_iff.mp h
  obtain ⟨group, hgroup, h⟩ := Option.bind_eq_some_iff.mp h
  obtain rfl := Option.some.inj h
  simp only [GroupWorld.step, Option.ite_none_right_eq_some, Option.some.injEq] at hworld
  obtain ⟨hnone, rfl⟩ := hworld
  dsimp only at hgroup
  rw [Function.update_self] at hgroup
  have hgroup := Option.some.inj hgroup
  have hid : group.groupId = groupId := hgroup ▸ rfl
  rw [hgroup]
  -- with the group and no Recent of it, everything is as before
  let w₁ : GroupRecents κ :=
    ⟨{ w.world with groups := Function.update w.world.groups groupId (some group) }, w.recents⟩
  have hroom : ∀ r ∈ w.recents.all, r.chatRoomId ≠ groupId := by
    rintro r hr rfl
    have hsome := (hI r hr).2
    rw [hnone] at hsome
    cases hsome
  have hI₁ : OfGroups w₁ := fun r hr => by
    refine ⟨(hI r hr).1, ?_⟩
    show (Function.update w.world.groups groupId _ r.chatRoomId).isSome
    rw [Function.update_of_ne (hroom r hr)]
    exact (hI r hr).2
  have hP₁ : NamesAgree w₁ := by
    intro id g hg r hr
    obtain ⟨hmem, hid⟩ := Recents.mem_inRoom.mp hr
    have hne : id ≠ groupId := hid ▸ hroom r hmem
    refine hP id g ?_ r hr
    rw [← hg]
    exact (Function.update_of_ne hne ..).symm
  have hg₁ : w₁.world.groups (startGroupChat group).chatRoomId = some group := by
    rw [show (startGroupChat group).chatRoomId = groupId from hid]
    exact Function.update_self ..
  obtain ⟨created, hall, hcreated, -⟩ := @Operation.all_run_createRecent_names currentId date
    (startGroupChat group) rfl rfl w.recents
  have hnamed : ((Operation.createRecent currentId date (startGroupChat group)).run
      w.recents).all.map Recent.named =
        w₁.recents.all.map Recent.named ++ created.map Recent.named := by
    rw [hall, List.map_append]
  have hdone := @agree_iff_of_created κ w₁
    ⟨w₁.world, (Operation.createRecent currentId date (startGroupChat group)).run w.recents⟩
    (fun _ => rfl) (startGroupChat group) created hnamed hcreated group hg₁ hI₁ hP₁
  exact ⟨hdone.1, hdone.2.mpr (.inr ⟨rfl, rfl⟩)⟩

theorem agree_saveButtonPressed {chat : κ} {name avatar : String} (hI : OfGroups w)
    (hP : NamesAgree w) (h : w.nameStep (.saveButtonPressed chat name avatar) = some w') :
    OfGroups w' ∧ NamesAgree w' := by
  obtain ⟨group, hgroup, h⟩ := Option.bind_eq_some_iff.mp h
  obtain ⟨world, hworld, h⟩ := Option.bind_eq_some_iff.mp h
  obtain rfl := Option.some.inj h
  obtain ⟨group', hgroup', hworld⟩ := Option.bind_eq_some_iff.mp hworld
  obtain rfl := Option.some.inj (hgroup.symm.trans hgroup')
  obtain ⟨stored, hstored, hworld⟩ := Option.bind_eq_some_iff.mp hworld
  simp only [Option.ite_none_right_eq_some, Option.some.injEq] at hworld
  obtain ⟨-, rfl⟩ := hworld
  have hall := Operation.all_run_updateExistingRecentWithNewValues group.groupId
    { withUserFullName := some name, avatar := some avatar } w.recents
  constructor
  · intro r' hr'
    obtain ⟨r, hr, rfl⟩ := List.mem_map.mp (hall ▸ hr')
    obtain ⟨htype, hsome⟩ := hI r hr
    -- the values of the operation are neither room nor type
    have hsame : (if r.chatRoomId = group.groupId then r.updateData
        { withUserFullName := some name, avatar := some avatar } else r).chatRoomId = r.chatRoomId ∧
        (if r.chatRoomId = group.groupId then r.updateData
        { withUserFullName := some name, avatar := some avatar } else r).type = r.type := by
      split_ifs <;> exact ⟨rfl, rfl⟩
    rw [hsame.1, hsame.2]
    refine ⟨htype, ?_⟩
    by_cases hid : r.chatRoomId = group.groupId
    · show (Function.update w.world.groups group.groupId _ r.chatRoomId).isSome
      rw [hid, Function.update_self]
      rfl
    · show (Function.update w.world.groups group.groupId _ r.chatRoomId).isSome
      rwa [Function.update_of_ne hid]
  · intro groupId g hg r' hr'
    obtain ⟨hr', hroom⟩ := Recents.mem_inRoom.mp hr'
    obtain ⟨r, hr, rfl⟩ := List.mem_map.mp (hall ▸ hr')
    change Function.update w.world.groups group.groupId _ groupId = some g at hg
    by_cases hid : r.chatRoomId = group.groupId
    · rw [if_pos hid] at hroom ⊢
      obtain rfl : groupId = group.groupId := hroom.symm.trans hid
      rw [Function.update_self] at hg
      obtain rfl := Option.some.inj hg
      exact ⟨rfl, rfl⟩
    · rw [if_neg hid] at hroom ⊢
      rw [Function.update_of_ne (hroom ▸ hid)] at hg
      exact hP groupId g hg r (Recents.mem_inRoom.mpr ⟨hr, hroom⟩)

/-- The row that is tapped has the name already. -/
theorem agree_restartRecentChat {currentUser : FUser} {date : String} {recentId : ℕ}
    (hI : OfGroups w) (hP : NamesAgree w)
    (h : w.nameStep (.restartRecentChat currentUser date recentId) = some w') :
    OfGroups w' ∧ NamesAgree w' := by
  obtain ⟨recent, hrecent, h⟩ := Option.bind_eq_some_iff.mp h
  obtain rfl := Option.some.inj h
  obtain ⟨hmem, -, -⟩ := Recents.mem_loadRecentChats.mp (List.mem_of_find?_eq_some hrecent)
  obtain ⟨htype, hsome⟩ := hI recent hmem
  obtain ⟨g, hg⟩ := Option.isSome_iff_exists.mp hsome
  obtain ⟨hname, havatar⟩ := hP recent.chatRoomId g hg recent (Recents.mem_inRoom.mpr ⟨hmem, rfl⟩)
  have hrestart : restartRecentChat currentUser recent =
      ⟨recent.membersToPush, recent.chatRoomId, recent.withUserFullName, .kGROUP, none,
        some recent.avatar⟩ := by
    unfold restartRecentChat
    rw [htype]
  obtain ⟨created, hall, hcreated, -⟩ := @Operation.all_run_createRecent_names currentUser.objectId
    date (restartRecentChat currentUser recent) (by rw [hrestart]) (by rw [hrestart]; rfl) w.recents
  have hnamed : ((Operation.createRecent currentUser.objectId date
      (restartRecentChat currentUser recent)).run w.recents).all.map Recent.named =
        w.recents.all.map Recent.named ++ created.map Recent.named := by
    rw [hall, List.map_append]
  have hdone := @agree_iff_of_created κ w { w with
    recents := (Operation.createRecent currentUser.objectId date
      (restartRecentChat currentUser recent)).run w.recents } (fun _ => rfl) _ created hnamed hcreated g
    (by rw [hrestart]; exact hg) hI hP
  refine ⟨hdone.1, hdone.2.mpr (.inr ?_)⟩
  rw [hrestart]
  exact ⟨hname, congrArg some havatar⟩

theorem agree_updateGroup {screen : κ} {currentId : Uid} {date : String}
    {schedule : List (Action Bool)} (hI : OfGroups w) (hP : NamesAgree w)
    (h : w.step (.updateGroup screen currentId date schedule) = some w') :
    OfGroups w' ∧ (NamesAgree w' ↔
      w.InvitesByName (.group (.updateGroup screen currentId date schedule))) := by
  obtain ⟨vc, c, hvc, hworld, hrun, hfinished, hstore⟩ := updateGroup_cases h
  obtain ⟨created, hall, hcreated, hlength⟩ := named_of_finished hrun hfinished
  obtain ⟨world, hdone, hworld⟩ := Option.bind_eq_some_iff.mp hworld
  obtain ⟨world', hupdate, hworld⟩ := Option.bind_eq_some_iff.mp hworld
  obtain rfl := Option.some.inj hworld
  obtain ⟨vc₁, hvc₁, hdone⟩ := Option.bind_eq_some_iff.mp hdone
  obtain rfl := Option.some.inj (hvc.symm.trans hvc₁)
  simp only [Option.ite_none_right_eq_some, Option.some.injEq] at hdone
  obtain ⟨-, rfl⟩ := hdone
  obtain ⟨vc₂, stored, hvc₂, hstored, hlast⟩ := GroupWorld.updateData_cases hupdate
  -- the update that arrives is the one that has just been sent
  have hsame : vc₂ = vc := by simpa using hvc₂.symm
  subst hsame
  have hnames : SameNames w.world w'.world := by
    intro groupId
    rw [hlast]
    by_cases hid : groupId = vc₂.group.groupId
    · subst hid
      dsimp only at hstored ⊢
      rw [Function.update_self, hstored]
      rfl
    · dsimp only
      rw [Function.update_of_ne hid]
  have hdone := agree_iff_of_created hnames (hstore ▸ hall) hcreated hstored hI hP
  refine ⟨hdone.1, hdone.2.trans ?_⟩
  rw [← List.length_eq_zero_iff, hlength, List.length_eq_zero_iff]
  constructor
  · intro hname vc' hvc' g hg
    obtain rfl := Option.some.inj (hvc.symm.trans hvc')
    obtain rfl := Option.some.inj (hstored.symm.trans hg)
    exact hname.imp_right fun hcalled => ⟨hcalled.1, Option.some.inj hcalled.2⟩
  · intro hname
    exact (hname _ hvc stored hstored).imp_right fun hcalled => ⟨hcalled.1, congrArg some hcalled.2⟩

theorem nameStep_agree {a : GroupNameAction κ} (hI : OfGroups w) (hP : NamesAgree w)
    (h : w.nameStep a = some w') : OfGroups w' ∧ (NamesAgree w' ↔ w.InvitesByName a) := by
  -- every action but an invitation keeps the names
  have hkept : OfGroups w' ∧ NamesAgree w' → OfGroups w' ∧ (NamesAgree w' ↔ True) :=
    And.imp_right iff_true_intro
  have hworld : ∀ {world : GroupWorld κ}, world.groups = w.world.groups →
      w' = { w with world := world } → OfGroups w' ∧ (NamesAgree w' ↔ True) := by
    intro world hgroups hw'
    have hsame : w'.world.groups = w.world.groups := by rw [hw', hgroups]
    exact hkept (agree_of_map (fun _ => rfl) (sameNames_of_groups hsame)
      (by rw [hw']; exact (List.map_id' _).symm) hI hP)
  have hrecents : ∀ {recents : Recents} {f : Recent → Recent}, recents.all = w.recents.all.map f →
      (∀ d, (f d).named = d.named) → w' = { w with recents := recents } →
      OfGroups w' ∧ (NamesAgree w' ↔ True) := by
    intro recents f hall hf hw'
    exact hkept (agree_of_map hf (sameNames_of_groups (congrArg (·.world.groups) hw'))
      (by rw [hw']; exact hall) hI hP)
  cases a with
  | group a =>
    cases a with
    | createGroup groupId subject currentId memberIds avatar date =>
      exact hkept (agree_createGroup hI hP h)
    | sendMessage currentId date groupId lastMessage =>
      refine hrecents (Operation.all_run_updateRecents currentId date groupId lastMessage w.recents)
        (fun d => ?_) (Option.some.inj h).symm
      split_ifs
      · exact named_updateData rfl rfl d
      · rfl
    | updatePushMembers currentId recentId =>
      obtain ⟨recent, -, h⟩ := Option.bind_eq_some_iff.mp h
      refine hrecents (Operation.all_run_updateExistingRecentWithNewValues recent.chatRoomId _
        w.recents) (fun d => ?_) (Option.some.inj h).symm
      split_ifs
      · exact named_updateData rfl rfl d
      · rfl
    | getCurrentGroup chat groupId =>
      obtain ⟨world, hstep, h⟩ := Option.bind_eq_some_iff.mp h
      obtain ⟨group, -, hstep⟩ := Option.bind_eq_some_iff.mp hstep
      exact hworld (Option.some.inj hstep ▸ rfl) (Option.some.inj h).symm
    | inviteUsers chat screen =>
      obtain ⟨world, hstep, h⟩ := Option.bind_eq_some_iff.mp h
      obtain ⟨group, -, hstep⟩ := Option.bind_eq_some_iff.mp hstep
      exact hworld (Option.some.inj hstep ▸ rfl) (Option.some.inj h).symm
    | didSelectRow screen objectId =>
      obtain ⟨world, hstep, h⟩ := Option.bind_eq_some_iff.mp h
      obtain ⟨vc, -, hstep⟩ := Option.bind_eq_some_iff.mp hstep
      exact hworld (Option.some.inj hstep ▸ rfl) (Option.some.inj h).symm
    | updateGroup screen currentId date schedule => exact agree_updateGroup hI hP h
  | saveButtonPressed chat name avatar => exact hkept (agree_saveButtonPressed hI hP h)
  | restartRecentChat currentUser date recentId => exact hkept (agree_restartRecentChat hI hP h)
  | clearRecentCouter currentId groupId =>
    refine hrecents (Operation.all_run_clearRecentCouter currentId groupId w.recents) (fun d => ?_)
      (Option.some.inj h).symm
    split_ifs
    · exact named_updateData rfl rfl d
    · rfl
  | deleteRecentChat recentId =>
    have hw' := (Option.some.inj h).symm
    refine hkept (agree_of_old (sameNames_of_groups (congrArg (·.world.groups) hw'))
      (fun r' hr' => ?_) hI hP)
    rw [hw', Recents.all_delete] at hr'
    exact ⟨r', List.mem_of_mem_filter hr', rfl⟩

/-- For every run of groups that are created, renamed, muted, extended, left and opened again:
all Recents are called as their groups in every state exactly when every invitation that gives
Recents to users has the name and the icon that the Group document has by then. -/
theorem names_agree_iff (actions : List (GroupNameAction κ)) :
    Runs.Always nameStep NamesAgree (init : GroupRecents κ) actions ↔
      Runs.Guarded nameStep InvitesByName (init : GroupRecents κ) actions :=
  Runs.always_iff_guarded (I := OfGroups) (fun _ _ _ hI hP hs => nameStep_agree hI hP hs)
    (fun _ hr => absurd hr List.not_mem_nil) (fun _ _ hg => by cases hg)

end GroupRecents

end LiChat
