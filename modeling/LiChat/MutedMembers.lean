import LiChat.General.Documents
import LiChat.General.Histories
import LiChat.General.Toggle
import LiChat.RecentVisibility

/-!
# Muting a room

Who is notified of the messages of a room is one list, repeated in every Recent of the
room.  A member's device computes the whole list from the Recent that it showed when the
row was swiped, and writes it to all Recents.
-/

namespace LiChat
open Documents Histories Toggle

/-- A call of `updatePushMembers`: the list it writes to the Recents of the room, and
those it has still to write to, once its query has returned. -/
structure PushOperation where
  currentId : Uid
  mute : Bool
  membersToPush : List Uid
  todo : Option (List ℕ)
  deriving DecidableEq, Repr

/-- The call for the Recent that was swiped; the title of the button, and so `mute`, is
chosen from the same Recent. -/
def updatePushMembers (currentId : Uid) (tempRecent : Recent) : PushOperation :=
  let mute := tempRecent.membersToPush.contains currentId
  { currentId := currentId
    mute := mute
    membersToPush :=
      if mute then tempRecent.membersToPush.erase currentId
      else tempRecent.membersToPush ++ [currentId]
    todo := none }

def PushOperation.written (recentId : ℕ) (op : PushOperation) : Bool :=
  match op.todo with
  | none => false
  | some todo => recentId ∉ todo

/-- The Recents, for every user the row that the device shows and the row that was
swiped, and the calls in the order of issue. -/
structure MuteWorld where
  store : Recents
  rows : Uid → Option Recent
  swiped : Uid → Option Recent
  operations : List PushOperation

inductive MuteAction where
  | loadRecentChats (currentId : Uid) (recentId : ℕ)
  | editActionsForRow (currentId : Uid)
  | muteAction (currentId : Uid)
  | getDocuments (n : ℕ)
  | updateRecent (n : ℕ)

namespace MuteWorld

def init (s : Recents) : MuteWorld := ⟨s, fun _ => none, fun _ => none, []⟩

/-- A step on the room: the listener shows a user's Recent, the user swipes it or
presses the button, or a call makes its query or one of its writes. -/
def step (room : String) (w : MuteWorld) : MuteAction → Option MuteWorld
  | .loadRecentChats currentId recentId => do
    let recent ← (w.store.inRoom room).find? fun r =>
      r.recentId = recentId ∧ r.userId = some currentId ∧ r.lastMessage ≠ ""
    some { w with rows := Function.update w.rows currentId (some recent) }
  | .editActionsForRow currentId => do
    let tempRecent ← w.rows currentId
    some { w with swiped := Function.update w.swiped currentId (some tempRecent) }
  | .muteAction currentId => do
    let tempRecent ← w.swiped currentId
    some { w with operations := w.operations ++ [updatePushMembers currentId tempRecent] }
  | .getDocuments n => do
    let op ← w.operations[n]?
    if op.todo = none then
      some { w with
        operations := w.operations.set n
          { op with todo := some ((w.store.inRoom room).map Recent.recentId) } }
    else none
  | .updateRecent n => do
    let op ← w.operations[n]?
    match op.todo with
    | some (recentId :: todo) =>
      some { w with
        store := w.store.apply (.updateData recentId { membersToPush := some op.membersToPush })
        operations := w.operations.set n { op with todo := some todo } }
    | _ => none

theorem updateData_eq_callback (room : String) (l : List Uid) (s : Recents) :
    ((s.inRoom room).map Recent.recentId).map
        (fun recentId => Write.updateData recentId { membersToPush := some l }) =
      (Operation.updateExistingRecentWithNewValues room { membersToPush := some l }).callback
        (s.inRoom room) := by
  rw [List.map_map]
  rfl

/-- The user's last toggle was an unmute, or there was none and the user is in the list
that the Recents had at the beginning. -/
def Wants (members : List Uid) (operations : List PushOperation) (u : Uid) : Prop :=
  ((latest (fun op : PushOperation => op.currentId = u) operations).map PushOperation.mute).elim
    (u ∈ members) (· = false)

/-- The list of the latest operation that satisfies `p`. -/
def latestList (p : PushOperation → Bool) (members : List Uid) (operations : List PushOperation) :
    List Uid :=
  ((latest p operations).map PushOperation.membersToPush).getD members

/-- A button is pressed on a Recent that shows the wishes of all other members, and a
write to a Recent does not come after one of a later call. -/
def Timely (members : List Uid) (w : MuteWorld) : MuteAction → Prop
  | .muteAction currentId => ∀ tempRecent ∈ w.swiped currentId,
      ∀ v, v ≠ currentId → (v ∈ tempRecent.membersToPush ↔ Wants members w.operations v)
  | .updateRecent n => ∀ op ∈ w.operations[n]?, ∀ recentId ∈ op.todo.bind List.head?,
      ∀ later ∈ w.operations.drop (n + 1), later.written recentId = false
  | _ => True

instance (members : List Uid) (operations : List PushOperation) (u : Uid) :
    Decidable (Wants members operations u) :=
  match h : latest (fun op : PushOperation => op.currentId = u) operations with
  | none => decidable_of_iff (u ∈ members) (by simp [Wants, h])
  | some op => decidable_of_iff (op.mute = false) (by simp [Wants, h])

theorem Wants.mem {members : List Uid} {operations : List PushOperation} {u : Uid}
    (h : Wants members operations u) : u ∈ members ∨ u ∈ operations.map PushOperation.currentId := by
  unfold Wants at h
  cases hlatest : latest (fun op : PushOperation => op.currentId = u) operations with
  | none =>
    rw [hlatest] at h
    exact Or.inl h
  | some op =>
    obtain ⟨hop, huser⟩ := mem_of_latest hlatest
    exact Or.inr (List.mem_map.mpr ⟨op, hop, of_decide_eq_true huser⟩)

theorem forall_agrees_iff {members : List Uid} {w : MuteWorld} {currentId : Uid} {tempRecent : Recent} :
    (∀ v ∈ tempRecent.membersToPush ++
        (members ++ w.operations.map PushOperation.currentId), v ≠ currentId →
        (v ∈ tempRecent.membersToPush ↔ Wants members w.operations v)) ↔
      ∀ v, v ≠ currentId → (v ∈ tempRecent.membersToPush ↔ Wants members w.operations v) := by
  constructor
  · intro h v hv
    by_cases hmem : v ∈ tempRecent.membersToPush ++
        (members ++ w.operations.map PushOperation.currentId)
    · exact h v hmem hv
    · simp only [List.mem_append, not_or] at hmem
      exact iff_of_false hmem.1 fun hwants => not_or.mpr hmem.2 hwants.mem
  · exact fun h v _ hv => h v hv

instance (members : List Uid) (w : MuteWorld) : (a : MuteAction) → Decidable (Timely members w a)
  | .loadRecentChats _ _ => isTrue trivial
  | .editActionsForRow _ => isTrue trivial
  | .getDocuments _ => isTrue trivial
  | .muteAction currentId =>
    haveI := fun tempRecent => decidable_of_iff _
      (@forall_agrees_iff members w currentId tempRecent)
    inferInstanceAs (Decidable (∀ tempRecent ∈ w.swiped currentId, _))
  | .updateRecent n => inferInstanceAs (Decidable (∀ op ∈ w.operations[n]?,
      ∀ recentId ∈ op.todo.bind List.head?, ∀ later ∈ w.operations.drop (n + 1), _))

theorem wants_concat (members : List Uid) (operations : List PushOperation) (op : PushOperation)
    (u : Uid) : Wants members (operations ++ [op]) u ↔
      if op.currentId = u then op.mute = false else Wants members operations u := by
  unfold Wants
  rw [latest_concat]
  by_cases h : op.currentId = u <;> simp [h]

theorem latestList_concat_of_pos {p : PushOperation → Bool} {members : List Uid}
    {operations : List PushOperation} {op : PushOperation} (h : p op = true) :
    latestList p members (operations ++ [op]) = op.membersToPush := by
  rw [latestList, latest_concat, if_pos h]
  rfl

theorem latestList_concat_of_neg {p : PushOperation → Bool} {members : List Uid}
    {operations : List PushOperation} {op : PushOperation} (h : p op = false) :
    latestList p members (operations ++ [op]) = latestList p members operations := by
  rw [latestList, latest_concat, if_neg (by simp [h]), latestList]

/-- Getting ahead with the writes of a call changes neither who wants what nor which
list is the latest. -/
theorem wants_set {members : List Uid} {operations : List PushOperation} {n : ℕ} {op : PushOperation}
    (h : operations[n]? = some op) (todo : Option (List ℕ)) (u : Uid) :
    Wants members (operations.set n { op with todo := todo }) u ↔ Wants members operations u := by
  unfold Wants
  rw [latest_set_of_same (b := { op with todo := todo }) h rfl rfl]

theorem latestList_set {p : PushOperation → Bool} {members : List Uid}
    {operations : List PushOperation} {n : ℕ} {op : PushOperation} (todo : Option (List ℕ))
    (h : operations[n]? = some op) (hp : p { op with todo := todo } = p op) :
    latestList p members (operations.set n { op with todo := todo }) =
      latestList p members operations := by
  rw [latestList, latest_set_of_same (b := { op with todo := todo }) h hp rfl, latestList]

@[simp] theorem updatePushMembers_currentId (currentId : Uid) (tempRecent : Recent) :
    (updatePushMembers currentId tempRecent).currentId = currentId := rfl

theorem updatePushMembers_spec {currentId : Uid} {tempRecent : Recent}
    (hnodup : tempRecent.membersToPush.Nodup) :
    (updatePushMembers currentId tempRecent).membersToPush.Nodup ∧
      (currentId ∈ (updatePushMembers currentId tempRecent).membersToPush ↔
        (updatePushMembers currentId tempRecent).mute = false) ∧
      ∀ v, v ≠ currentId →
        (v ∈ (updatePushMembers currentId tempRecent).membersToPush ↔ v ∈ tempRecent.membersToPush) := by
  have htoggle : (updatePushMembers currentId tempRecent).membersToPush =
      toggle currentId tempRecent.membersToPush := by
    simp [updatePushMembers, toggle]
  rw [htoggle]
  refine ⟨nodup_toggle hnodup, ?_, fun v hv => mem_toggle_of_ne hv⟩
  rw [mem_toggle_self hnodup]
  simp [updatePushMembers]

/-- No list names a member twice; every Recent has the list of the latest call that has
written to it; and the list issued last says what the members want. -/
structure Muted (room : String) (members : List Uid) (w : MuteWorld) : Prop where
  rows : ∀ u r, w.rows u = some r → r.membersToPush.Nodup
  swiped : ∀ u r, w.swiped u = some r → r.membersToPush.Nodup
  lists : ∀ op ∈ w.operations, op.membersToPush.Nodup
  todo : ∀ op ∈ w.operations, ∀ todo, op.todo = some todo → todo.Nodup
  arrived : ∀ r ∈ w.store.inRoom room,
    r.membersToPush = latestList (PushOperation.written r.recentId) members w.operations
  issued : ∀ u, u ∈ latestList (fun _ => true) members w.operations ↔ Wants members w.operations u

theorem nodup_latestList {p : PushOperation → Bool} {members : List Uid}
    {operations : List PushOperation} (hmembers : members.Nodup)
    (h : ∀ op ∈ operations, op.membersToPush.Nodup) : (latestList p members operations).Nodup := by
  unfold latestList
  cases hlatest : latest p operations with
  | none => exact hmembers
  | some op => exact h op (mem_of_latest hlatest).1

theorem muted_init {room : String} {members : List Uid} {s : Recents}
    (h : ∀ r ∈ s.inRoom room, r.membersToPush = members) : Muted room members (init s) where
  rows := by rintro _ _ ⟨⟩
  swiped := by rintro _ _ ⟨⟩
  lists := by rintro _ ⟨⟩
  todo := by rintro _ ⟨⟩
  arrived := h
  issued := fun _ => Iff.rfl

section Steps
variable {room : String} {members : List Uid} {w w' : MuteWorld}

theorem muted_press {currentId : Uid} {tempRecent : Recent} (hI : Muted room members w)
    (hswiped : w.swiped currentId = some tempRecent)
    (hothers : ∀ v, v ≠ currentId → (v ∈ tempRecent.membersToPush ↔ Wants members w.operations v)) :
    Muted room members
      { w with operations := w.operations ++ [updatePushMembers currentId tempRecent] } := by
  obtain ⟨hnodup, hself, hrest⟩ := updatePushMembers_spec (hI.swiped currentId tempRecent hswiped)
  refine ⟨hI.rows, hI.swiped, fun op hop => ?_, fun op hop => ?_, fun r hr => ?_, fun u => ?_⟩
  · rcases List.mem_append.mp hop with hop | hop
    · exact hI.lists op hop
    · rw [List.mem_singleton.mp hop]
      exact hnodup
  · rcases List.mem_append.mp hop with hop | hop
    · exact hI.todo op hop
    · rw [List.mem_singleton.mp hop]
      rintro todo ⟨⟩
  · rw [latestList_concat_of_neg rfl]
    exact hI.arrived r hr
  · rw [latestList_concat_of_pos rfl, wants_concat, updatePushMembers_currentId]
    by_cases hu : currentId = u
    · subst hu
      rw [if_pos rfl]
      exact hself
    · rw [if_neg hu, hrest u (Ne.symm hu)]
      exact hothers u (Ne.symm hu)

theorem muted_set_operations {n : ℕ} {op : PushOperation} {todo : List ℕ} {store : Recents}
    (hI : Muted room members w) (hop : w.operations[n]? = some op) (hnodup : todo.Nodup)
    (harrived : ∀ r ∈ store.inRoom room, r.membersToPush = latestList
      (PushOperation.written r.recentId) members
      (w.operations.set n { op with todo := some todo })) :
    Muted room members
      { w with store := store, operations := w.operations.set n { op with todo := some todo } } := by
  refine ⟨hI.rows, hI.swiped, fun op' hop' => ?_, fun op' hop' => ?_, harrived, fun u => ?_⟩
  · rcases List.mem_or_eq_of_mem_set hop' with hop' | rfl
    · exact hI.lists op' hop'
    · exact hI.lists op (List.mem_of_getElem? hop)
  · rcases List.mem_or_eq_of_mem_set hop' with hop' | rfl
    · exact hI.todo op' hop'
    · rintro todo' ⟨⟩
      exact hnodup
  · rw [wants_set hop, latestList_set (some todo) hop rfl]
    exact hI.issued u

theorem muted_query {n : ℕ} {op : PushOperation} (hI : Muted room members w)
    (hop : w.operations[n]? = some op) (htodo : op.todo = none) :
    Muted room members { w with
      operations := w.operations.set n
        { op with todo := some ((w.store.inRoom room).map Recent.recentId) } } := by
  have hnodup : ((w.store.inRoom room).map Recent.recentId).Nodup :=
    (List.filter_sublist.map _).nodup w.store.nodup_recentId
  refine muted_set_operations hI hop hnodup fun r hr => ?_
  rw [hI.arrived r hr, latestList_set _ hop]
  have hmem := List.mem_map_of_mem (f := Recent.recentId) hr
  simp [PushOperation.written, htodo, hmem]

theorem muted_write {n : ℕ} {op : PushOperation} {recentId : ℕ} {todo : List ℕ}
    (hI : Muted room members w) (hop : w.operations[n]? = some op)
    (htodo : op.todo = some (recentId :: todo))
    (hlater : ∀ later ∈ w.operations.drop (n + 1), later.written recentId = false) :
    Muted room members { w with
      store := w.store.apply (.updateData recentId { membersToPush := some op.membersToPush })
      operations := w.operations.set n { op with todo := some todo } } := by
  obtain ⟨hnot, hnodup⟩ := List.nodup_cons.mp (hI.todo op (List.mem_of_getElem? hop) _ htodo)
  refine muted_set_operations hI hop hnodup fun r hr => ?_
  obtain ⟨d, hd, rfl⟩ := Recents.mem_inRoom_updateData.mp hr
  by_cases hid : d.recentId = recentId
  · -- this Recent now has the list of the call
    subst hid
    have hwritten : PushOperation.written d.recentId { op with todo := some todo } = true := by
      simpa [PushOperation.written] using hnot
    rw [if_pos rfl, Recent.updateData_recentId, latestList,
      latest_set_of_last hop hwritten fun later hmem => by simp [hlater later hmem]]
    rfl
  · rw [if_neg hid, hI.arrived d hd, latestList_set _ hop]
    simp [PushOperation.written, htodo, hid]

theorem muted_step {a : MuteAction} (hmembers : members.Nodup) (hI : Muted room members w)
    (hC : Timely members w a) (h : step room w a = some w') : Muted room members w' := by
  cases a with
  | loadRecentChats currentId recentId =>
    obtain ⟨recent, hrow, h⟩ := Option.bind_eq_some_iff.mp h
    obtain rfl := Option.some.inj h
    refine { hI with rows := forall_update hI.rows ?_ }
    rw [hI.arrived recent (List.mem_of_find?_eq_some hrow)]
    exact nodup_latestList hmembers hI.lists
  | editActionsForRow currentId =>
    obtain ⟨tempRecent, hrow, h⟩ := Option.bind_eq_some_iff.mp h
    obtain rfl := Option.some.inj h
    exact { hI with swiped := forall_update hI.swiped (hI.rows currentId tempRecent hrow) }
  | muteAction currentId =>
    obtain ⟨tempRecent, hswiped, h⟩ := Option.bind_eq_some_iff.mp h
    obtain rfl := Option.some.inj h
    exact muted_press hI hswiped (hC tempRecent hswiped)
  | getDocuments n =>
    obtain ⟨op, hop, h⟩ := Option.bind_eq_some_iff.mp h
    simp only [Option.ite_none_right_eq_some, Option.some.injEq] at h
    obtain ⟨htodo, rfl⟩ := h
    exact muted_query hI hop htodo
  | updateRecent n =>
    obtain ⟨op, hop, h⟩ := Option.bind_eq_some_iff.mp h
    cases htodo : op.todo with
    | none => simp [htodo] at h
    | some l =>
      cases l with
      | nil => simp [htodo] at h
      | cons recentId todo =>
        simp only [htodo, Option.some.injEq] at h
        obtain rfl := h
        exact muted_write hI hop htodo (hC op hop recentId (by rw [htodo]; rfl))

end Steps

/-- Where every press is made on a Recent that shows the wishes of all other members and
no write goes back behind a later one, every Recent of the room has in the end exactly
those members in its list whose own last toggle was an unmute, or who were in it at the
beginning and never toggled, and nobody twice. -/
theorem mutes_kept (room : String) (members : List Uid) (s : Recents) (actions : List MuteAction)
    (w : MuteWorld) (hmembers : members.Nodup)
    (hinit : ∀ r ∈ s.inRoom room, r.membersToPush = members)
    (hrun : Runs.exec (step room) (init s) actions = some w)
    (hguard : Runs.Guarded (step room) (Timely members) (init s) actions)
    (hfinished : ∀ op ∈ w.operations, op.todo = some []) :
    ∀ r ∈ w.store.inRoom room,
      (∀ u, u ∈ r.membersToPush ↔ Wants members w.operations u) ∧ r.membersToPush.Nodup := by
  have hI : Muted room members w :=
    (Runs.always_of_guarded (I := Muted room members)
      (fun w a w' hI hC hstep => muted_step hmembers hI hC hstep) (muted_init hinit) hguard).last hrun
  intro r hr
  have hlast : r.membersToPush = latestList (fun _ => true) members w.operations := by
    rw [hI.arrived r hr, latestList, latest_congr, latestList]
    intro op hop
    simp [PushOperation.written, hfinished op hop]
  rw [hlast]
  exact ⟨hI.issued, nodup_latestList hmembers hI.lists⟩

def chatOfTwo : Recents :=
  (Operation.updateRecents "alice" "20190204120000" "aliceboris" "hi").run
    ((Operation.createRecent "alice" "20190204120000"
      (startPrivateChat ChatStore.alice ChatStore.boris)).run Recents.empty)

def aliceThenBoris : List MuteAction :=
  [.loadRecentChats "alice" 0, .editActionsForRow "alice", .muteAction "alice", .getDocuments 0,
    .updateRecent 0, .updateRecent 0, .loadRecentChats "boris" 1, .editActionsForRow "boris",
    .muteAction "boris", .getDocuments 1, .updateRecent 1, .updateRecent 1]

theorem mutes_kept_one_after_the_other :
    ∃ w, Runs.exec (step "aliceboris") (init chatOfTwo) aliceThenBoris = some w ∧
      ∀ r ∈ w.store.inRoom "aliceboris",
        (∀ u, u ∈ r.membersToPush ↔ Wants ["alice", "boris"] w.operations u) ∧
          r.membersToPush.Nodup := by
  refine ⟨_, rfl, mutes_kept "aliceboris" ["alice", "boris"] chatOfTwo aliceThenBoris _ (by decide)
    (by decide) rfl (by decide) (by decide)⟩

/-- Both press before either device has the other's list: the write that comes last takes
the mute of Alice back. -/
theorem mute_lost_by_second_mute :
    ∃ w, Runs.exec (step "aliceboris") (init chatOfTwo) [.loadRecentChats "alice" 0,
        .loadRecentChats "boris" 1, .editActionsForRow "alice", .editActionsForRow "boris",
        .muteAction "alice", .muteAction "boris", .getDocuments 0, .getDocuments 1,
        .updateRecent 0, .updateRecent 0, .updateRecent 1, .updateRecent 1] = some w ∧
      (∀ op ∈ w.operations, op.todo = some []) ∧
      ¬ Wants ["alice", "boris"] w.operations "alice" ∧
      ∀ r ∈ w.store.inRoom "aliceboris", "alice" ∈ r.membersToPush := by
  exact ⟨_, rfl, by decide, by decide, by decide⟩

end MuteWorld

end LiChat
