import LiChat.General.Histories
import LiChat.General.Runs
import LiChat.User
import Mathlib.Data.List.AList

/-!
# Who is typing

The document Typing/<chatRoomId> has a flag for each user who has typed in the room.  The
chat screen shows an indicator after the flags of the other users, and writes the flag of
the current user: a keystroke sets it, and the call of `typingCounterStop` that comes two
seconds later clears it when no other keystroke is still waiting for its own call.
-/

namespace LiChat
open Histories

abbrev TypingDocument := AList fun _ : Uid => Bool

/-- An entry of the dictionary `snapshot.data()`. -/
abbrev TypingData := Sigma fun _ : Uid => Bool

/-- What the listener gets; a dictionary is gone through in the given order. -/
inductive TypingSnapshot where
  | error
  | notExists
  | data (order : List TypingData)

/-- The indicator, the calls of `scrollToBottom` and the document that the observer creates. -/
structure TypingObserver where
  showTypingIndicator : Bool := false
  scrolledToBottom : ℕ := 0
  setData : Option TypingData := none
  deriving DecidableEq

/-- One round of the loop of the observer. -/
def observeTyping (currentId : Uid) (s : TypingObserver) (data : TypingData) : TypingObserver :=
  if data.1 ≠ currentId then
    { s with
      showTypingIndicator := data.2
      scrolledToBottom := if data.2 then s.scrolledToBottom + 1 else s.scrolledToBottom }
  else s

def createTypingObserver (currentId : Uid) (snapshot : TypingSnapshot) (s : TypingObserver) :
    TypingObserver :=
  match snapshot with
  | .error => s
  | .notExists => { s with setData := some ⟨currentId, false⟩ }
  | .data order => order.foldl (observeTyping currentId) s

namespace TypingSnapshot

def order : TypingSnapshot → List TypingData
  | .data order => order
  | _ => []

/-- A snapshot of the document, gone through in some order. -/
def Of (document : Option TypingDocument) : TypingSnapshot → Prop
  | .error => False
  | .notExists => document = none
  | .data order => ∃ d, document = some d ∧ order.Perm d.entries

end TypingSnapshot

def otherUser (currentId : Uid) (data : TypingData) : Bool := data.1 ≠ currentId

def typingEntries (document : Option TypingDocument) : List TypingData :=
  (document.map AList.entries).getD []

/-- The indicator is on exactly when another user is typing. -/
def ReflectsTyping (currentId : Uid) (document : Option TypingDocument) (s : TypingObserver) : Prop :=
  s.showTypingIndicator = true ↔
    ∃ d, document = some d ∧ ∃ userId, userId ≠ currentId ∧ d.lookup userId = some true

/-- The last entry of another user in the order is on, if one of them is; without entries
of other users, the indicator has been off. -/
def LastOtherDecides (currentId : Uid) (order : List TypingData) (before : Bool) : Prop :=
  match latest (otherUser currentId) order with
  | some data => data.2 = true ∨ ∀ data ∈ order, otherUser currentId data → data.2 = false
  | none => before = false

/-- The flags of the other users are all the same; without one, the indicator has been off. -/
def OthersAgree (currentId : Uid) (entries : List TypingData) (before : Bool) : Prop :=
  (∀ data ∈ entries, otherUser currentId data → ∀ data' ∈ entries, otherUser currentId data' →
    data.2 = data'.2) ∧ ((∀ data ∈ entries, ¬ otherUser currentId data) → before = false)

theorem TypingSnapshot.Of.perm {document : Option TypingDocument} {snapshot : TypingSnapshot}
    (h : snapshot.Of document) : snapshot.order.Perm (typingEntries document) := by
  cases snapshot with
  | error => exact h.elim
  | notExists =>
    obtain rfl : document = none := h
    exact List.Perm.refl _
  | data order =>
    obtain ⟨d, rfl, hperm⟩ := h
    exact hperm

theorem exists_snapshot (document : Option TypingDocument) {order : List TypingData}
    (h : order.Perm (typingEntries document)) :
    ∃ snapshot : TypingSnapshot, snapshot.Of document ∧ snapshot.order = order := by
  cases document with
  | none => exact ⟨.notExists, rfl, (List.Perm.eq_nil h).symm⟩
  | some d => exact ⟨.data order, ⟨d, rfl, h⟩, rfl⟩

theorem showTypingIndicator_eq (currentId : Uid) (snapshot : TypingSnapshot) (s : TypingObserver) :
    (createTypingObserver currentId snapshot s).showTypingIndicator =
      ((latest (otherUser currentId) snapshot.order).map Sigma.snd).getD s.showTypingIndicator := by
  cases snapshot with
  | error => rfl
  | notExists => rfl
  | data order =>
    refine foldl_latest TypingObserver.showTypingIndicator (fun s data => ?_) order s
    by_cases h : data.1 = currentId <;> simp [observeTyping, otherUser, h]

theorem someone_typing_iff {currentId : Uid} {document : Option TypingDocument} :
    (∃ d, document = some d ∧ ∃ userId, userId ≠ currentId ∧ d.lookup userId = some true) ↔
      ∃ data ∈ typingEntries document, otherUser currentId data ∧ data.2 = true := by
  cases document with
  | none => simp [typingEntries]
  | some d =>
    constructor
    · rintro ⟨d', hd, userId, hother, htyping⟩
      obtain rfl := Option.some.inj hd
      exact ⟨⟨userId, true⟩, AList.mem_lookup_iff.mp htyping, by simpa [otherUser] using hother, rfl⟩
    · rintro ⟨⟨userId, typing⟩, hmem, hother, rfl⟩
      exact ⟨d, rfl, userId, by simpa [otherUser] using hother, AList.mem_lookup_iff.mpr hmem⟩

theorem reflects_order_iff {currentId : Uid} {order : List TypingData} {before : Bool} :
    (((latest (otherUser currentId) order).map Sigma.snd).getD before = true ↔
      ∃ data ∈ order, otherUser currentId data ∧ data.2 = true) ↔
        LastOtherDecides currentId order before := by
  rw [LastOtherDecides]
  cases hlatest : latest (otherUser currentId) order with
  | none =>
    have hnobody : ¬ ∃ data ∈ order, otherUser currentId data ∧ data.2 = true := by
      rintro ⟨data, hdata, hother, -⟩
      exact latest_eq_none.mp hlatest data hdata hother
    rw [iff_false_right hnobody]
    exact iff_of_eq (Bool.not_eq_true before)
  | some data =>
    obtain ⟨hdata, hother⟩ := mem_of_latest hlatest
    show (data.2 = true ↔ _) ↔ data.2 = true ∨ _
    have hone : data.2 = true → ∃ data ∈ order, otherUser currentId data ∧ data.2 = true :=
      fun htyping => ⟨data, hdata, hother, htyping⟩
    have hnobody : (¬ ∃ data ∈ order, otherUser currentId data ∧ data.2 = true) ↔
        ∀ data ∈ order, otherUser currentId data → data.2 = false := by
      simp only [not_exists, not_and, Bool.not_eq_true]
    rw [← hnobody]
    exact ⟨fun h => or_iff_not_imp_left.mpr fun hoff hsome => hoff (h.mpr hsome),
      fun h => ⟨hone, fun hsome => h.resolve_right (not_not.mpr hsome)⟩⟩

theorem othersAgree_iff {currentId : Uid} {entries : List TypingData} {before : Bool} :
    (∀ order : List TypingData, order.Perm entries →
      (((latest (otherUser currentId) order).map Sigma.snd).getD before = true ↔
        ∃ data ∈ entries, otherUser currentId data ∧ data.2 = true)) ↔
      OthersAgree currentId entries before := by
  have hsame : ∀ b : Bool, (b = true ↔ ∃ data ∈ entries, otherUser currentId data ∧ data.2 = true) ↔
      b = decide (∃ data ∈ entries, otherUser currentId data ∧ data.2 = true) := by
    intro b
    cases b <;> simp
  simp only [hsame]
  rw [forall_perm_latest_iff, OthersAgree]
  constructor
  · rintro ⟨hall, hnone⟩
    refine ⟨fun data hdata hother data' hdata' hother' => ?_, fun hnobody => ?_⟩
    · rw [hall data hdata hother, hall data' hdata' hother']
    · rw [hnone hnobody, decide_eq_false_iff_not]
      rintro ⟨data, hdata, hother, -⟩
      exact hnobody data hdata hother
  · rintro ⟨hagree, hnone⟩
    refine ⟨fun data hdata hother => ?_, fun hnobody => ?_⟩
    · rw [← hsame]
      refine ⟨fun htyping => ⟨data, hdata, hother, htyping⟩, ?_⟩
      rintro ⟨data', hdata', hother', htyping⟩
      rw [hagree data hdata hother data' hdata' hother', htyping]
    · rw [hnone hnobody, eq_comm, decide_eq_false_iff_not]
      rintro ⟨data, hdata, hother, -⟩
      exact hnobody data hdata hother

section Snapshots
variable {currentId : Uid} {document : Option TypingDocument} {s : TypingObserver}

theorem reflects_iff {snapshot : TypingSnapshot} (h : snapshot.Of document) :
    ReflectsTyping currentId document (createTypingObserver currentId snapshot s) ↔
      LastOtherDecides currentId snapshot.order s.showTypingIndicator := by
  rw [ReflectsTyping, someone_typing_iff, showTypingIndicator_eq, ← reflects_order_iff]
  simp only [h.perm.mem_iff]

theorem forall_reflects_iff :
    (∀ snapshot : TypingSnapshot, snapshot.Of document →
      ReflectsTyping currentId document (createTypingObserver currentId snapshot s)) ↔
        OthersAgree currentId (typingEntries document) s.showTypingIndicator := by
  rw [← othersAgree_iff]
  constructor
  · intro h order horder
    obtain ⟨snapshot, hsnapshot, rfl⟩ := exists_snapshot document horder
    have hreflects := h snapshot hsnapshot
    rwa [ReflectsTyping, someone_typing_iff, showTypingIndicator_eq] at hreflects
  · intro h snapshot hsnapshot
    rw [ReflectsTyping, someone_typing_iff, showTypingIndicator_eq]
    exact h snapshot.order hsnapshot.perm

end Snapshots

/-- For a snapshot the observer shows whether somebody else is typing exactly when the last
entry of another user decides, whatever the document holds; in every order of the entries it
does exactly when the flags of all other users are the same. -/
theorem createTypingObserver_reflects_iff (currentId : Uid) (document : Option TypingDocument)
    (s : TypingObserver) :
    (∀ snapshot : TypingSnapshot, snapshot.Of document →
      (ReflectsTyping currentId document (createTypingObserver currentId snapshot s) ↔
        LastOtherDecides currentId snapshot.order s.showTypingIndicator)) ∧
    ((∀ snapshot : TypingSnapshot, snapshot.Of document →
      ReflectsTyping currentId document (createTypingObserver currentId snapshot s)) ↔
        OthersAgree currentId (typingEntries document) s.showTypingIndicator) :=
  ⟨fun _ h => reflects_iff h, forall_reflects_iff⟩

/-- Bea is typing, Carl and Alice are not. -/
def beaTyping : TypingDocument :=
  List.toAList [⟨"bea", true⟩, ⟨"carl", false⟩, ⟨"alice", false⟩]

/-- On Alice's screen Bea is shown as typing or not, as the order has it. -/
theorem createTypingObserver_fails_group :
    (TypingSnapshot.data beaTyping.entries).Of (some beaTyping) ∧
    (TypingSnapshot.data beaTyping.entries.reverse).Of (some beaTyping) ∧
    ¬ ReflectsTyping "alice" (some beaTyping)
      (createTypingObserver "alice" (.data beaTyping.entries) {}) ∧
    ReflectsTyping "alice" (some beaTyping)
      (createTypingObserver "alice" (.data beaTyping.entries.reverse) {}) := by
  have hbea : ∃ d, some beaTyping = some d ∧ ∃ userId, userId ≠ "alice" ∧
      d.lookup userId = some true := ⟨beaTyping, rfl, "bea", by decide, by decide⟩
  refine ⟨⟨beaTyping, rfl, List.Perm.refl _⟩, ⟨beaTyping, rfl, List.reverse_perm _⟩, ?_, ?_⟩
  · intro h
    exact absurd (h.mpr hbea) (by decide)
  · exact iff_of_true (by decide) hbea

/-- The counter of the screen, the calls of `typingCounterStop` that have not come yet (each
under the number of its keystroke), and the document with the updateData requests that are
under way. -/
structure TypingRoom where
  typingCounter : ℤ
  keystrokes : ℕ
  scheduled : List ℕ
  updates : List Bool
  document : Option TypingDocument

inductive TypingAction where
  | shouldChangeTextIn
  | typingCounterStop (n : ℕ)
  | updateData
  | otherUser (userId : Uid) (typing : Bool)

namespace TypingAction

def isKeystroke : TypingAction → Bool
  | .shouldChangeTextIn => true
  | _ => false

def isStop : TypingAction → Bool
  | .typingCounterStop _ => true
  | _ => false

end TypingAction

/-- updateData fails where there is no document. -/
def updateTyping (userId : Uid) (typing : Bool) (document : Option TypingDocument) :
    Option TypingDocument :=
  document.map fun d => d.insert userId typing

namespace TypingRoom

def opened (document : Option TypingDocument) : TypingRoom := ⟨0, 0, [], [], document⟩

def typingCounterSave (typing : Bool) (s : TypingRoom) : TypingRoom :=
  { s with updates := s.updates ++ [typing] }

def typingCounterStart (s : TypingRoom) : TypingRoom :=
  let s := typingCounterSave true { s with typingCounter := s.typingCounter + 1 }
  { s with keystrokes := s.keystrokes + 1, scheduled := s.scheduled ++ [s.keystrokes] }

def typingCounterStop (s : TypingRoom) : TypingRoom :=
  let s := { s with typingCounter := s.typingCounter - 1 }
  if s.typingCounter = 0 then typingCounterSave false s else s

/-- A keystroke, the call that is the `n`-th of those to come, the oldest request of the
current user, or a request of another one. -/
def step (currentId : Uid) (s : TypingRoom) : TypingAction → Option TypingRoom
  | .shouldChangeTextIn => some s.typingCounterStart
  | .typingCounterStop n =>
    if n < s.scheduled.length then
      some { s with scheduled := s.scheduled.eraseIdx n }.typingCounterStop
    else none
  | .updateData =>
    match s.updates with
    | [] => none
    | typing :: updates =>
      some { s with updates := updates, document := updateTyping currentId typing s.document }
  | .otherUser userId typing =>
    if userId ≠ currentId then some { s with document := updateTyping userId typing s.document }
    else none

/-- The document when the requests under way have been done in the order of their issue. -/
def saved (currentId : Uid) (s : TypingRoom) : Option TypingDocument :=
  s.updates.foldl (fun document typing => updateTyping currentId typing document) s.document

end TypingRoom

def typingFlag (userId : Uid) (document : Option TypingDocument) : Option Bool :=
  document.bind fun d => d.lookup userId

theorem typingFlag_update_self (userId : Uid) (typing : Bool) {document : Option TypingDocument}
    (h : document.isSome) : typingFlag userId (updateTyping userId typing document) = some typing := by
  obtain ⟨d, rfl⟩ := Option.isSome_iff_exists.mp h
  exact AList.lookup_insert d

theorem typingFlag_update_of_ne {userId userId' : Uid} (h : userId' ≠ userId) (typing : Bool)
    (document : Option TypingDocument) :
    typingFlag userId (updateTyping userId' typing document) = typingFlag userId document := by
  cases document with
  | none => rfl
  | some d => exact AList.lookup_insert_ne h.symm

@[simp] theorem isSome_updateTyping (userId : Uid) (typing : Bool) (document : Option TypingDocument) :
    (updateTyping userId typing document).isSome = document.isSome := by
  cases document <;> rfl

namespace TypingRoom

theorem typingFlag_updates (currentId : Uid) (updates : List Bool) (document : Option TypingDocument)
    (h : document.isSome) :
    typingFlag currentId (updates.foldl (fun document typing => updateTyping currentId typing document)
      document) = updates.getLast?.or (typingFlag currentId document) := by
  induction updates generalizing document with
  | nil => rfl
  | cons typing updates ih =>
    rw [List.foldl_cons, ih _ ((isSome_updateTyping ..).trans h),
      typingFlag_update_self currentId typing h, List.getLast?_cons]
    cases updates.getLast? <;> rfl

theorem typingFlag_saved {currentId : Uid} {s : TypingRoom} (h : s.document.isSome) :
    typingFlag currentId (s.saved currentId) =
      s.updates.getLast?.or (typingFlag currentId s.document) :=
  typingFlag_updates currentId s.updates s.document h

/-- The counter is the number of calls that have not come, and the flag follows it. -/
structure Follows (currentId : Uid) (s : TypingRoom) (past : List TypingAction) : Prop where
  exists_document : s.document.isSome
  counter : s.typingCounter = s.scheduled.length
  keystrokes : s.keystrokes = past.countP TypingAction.isKeystroke
  unfired : s.scheduled.length + past.countP TypingAction.isStop = past.countP TypingAction.isKeystroke
  flag : 0 < s.keystrokes →
    typingFlag currentId (s.saved currentId) = some (decide (0 < s.scheduled.length))

variable {currentId : Uid} {s s' : TypingRoom} {past : List TypingAction}

theorem follows_opened (currentId : Uid) (document : TypingDocument) :
    Follows currentId (opened (some document)) [] where
  exists_document := rfl
  counter := rfl
  keystrokes := rfl
  unfired := rfl
  flag h := absurd h (lt_irrefl 0)

theorem typingFlag_save (h : s.document.isSome) (typing : Bool) :
    typingFlag currentId ((s.typingCounterSave typing).saved currentId) = some typing := by
  have hdocument : (s.typingCounterSave typing).document.isSome := h
  rw [typingFlag_saved hdocument]
  show (s.updates ++ [typing]).getLast?.or _ = _
  rw [List.getLast?_append]
  rfl

theorem Follows.start (h : Follows currentId s past) :
    Follows currentId s.typingCounterStart (past ++ [.shouldChangeTextIn]) where
  exists_document := h.exists_document
  counter := by
    show s.typingCounter + 1 = ((s.scheduled ++ [s.keystrokes]).length : ℤ)
    rw [h.counter, List.length_append, Nat.cast_add]
    rfl
  keystrokes := by
    show s.keystrokes + 1 = _
    rw [h.keystrokes, List.countP_append]
    rfl
  unfired := by
    show (s.scheduled ++ [s.keystrokes]).length + _ = _
    have hunfired := h.unfired
    simp [TypingAction.isStop, TypingAction.isKeystroke]
    omega
  flag _ := by
    have htrue : typingFlag currentId (s.typingCounterStart.saved currentId) = some true :=
      typingFlag_save (s := { s with typingCounter := s.typingCounter + 1 }) h.exists_document true
    rw [htrue]
    show some true = some (decide (0 < (s.scheduled ++ [s.keystrokes]).length))
    simp

theorem Follows.stop {n : ℕ} (h : Follows currentId s past) (hn : n < s.scheduled.length) :
    Follows currentId { s with scheduled := s.scheduled.eraseIdx n }.typingCounterStop
      (past ++ [.typingCounterStop n]) := by
  have hlength : (s.scheduled.eraseIdx n).length = s.scheduled.length - 1 :=
    List.length_eraseIdx_of_lt hn
  have hcounter : s.typingCounter - 1 = ((s.scheduled.eraseIdx n).length : ℤ) := by
    rw [h.counter, hlength]
    omega
  have hkeystrokes : s.keystrokes =
      (past ++ [TypingAction.typingCounterStop n]).countP TypingAction.isKeystroke := by
    simpa [TypingAction.isKeystroke] using h.keystrokes
  -- one call less is to come, one more has come
  have hunfired : (s.scheduled.eraseIdx n).length +
      (past ++ [TypingAction.typingCounterStop n]).countP TypingAction.isStop =
      (past ++ [TypingAction.typingCounterStop n]).countP TypingAction.isKeystroke := by
    have hbefore := h.unfired
    simp [TypingAction.isStop, TypingAction.isKeystroke]
    omega
  unfold typingCounterStop
  dsimp only
  split_ifs with hzero
  · -- the last call that was to come
    refine ⟨h.exists_document, hcounter, hkeystrokes, hunfired, fun _ => ?_⟩
    have hnone : (s.scheduled.eraseIdx n).length = 0 := by omega
    refine Eq.trans (typingFlag_save ?_ false) ?_
    · exact h.exists_document
    · show some false = some (decide (0 < (s.scheduled.eraseIdx n).length))
      rw [hnone]
      rfl
  · -- nothing is written, and the flag was set before
    refine ⟨h.exists_document, hcounter, hkeystrokes, hunfired, fun hstarted => ?_⟩
    have hflag := h.flag hstarted
    have hmore : 0 < (s.scheduled.eraseIdx n).length := by omega
    rw [decide_eq_true (Nat.zero_lt_of_lt hn)] at hflag
    show typingFlag currentId (s.saved currentId) =
      some (decide (0 < (s.scheduled.eraseIdx n).length))
    rw [hflag, decide_eq_true hmore]

theorem Follows.updateData {typing : Bool} {updates : List Bool} (h : Follows currentId s past)
    (hupdates : s.updates = typing :: updates) :
    Follows currentId
      { s with updates := updates, document := updateTyping currentId typing s.document }
      (past ++ [.updateData]) where
  exists_document := (isSome_updateTyping ..).trans h.exists_document
  counter := h.counter
  keystrokes := by simpa [TypingAction.isKeystroke] using h.keystrokes
  unfired := by simpa [TypingAction.isKeystroke, TypingAction.isStop] using h.unfired
  flag hstarted := by
    have hsame : saved currentId
        { s with updates := updates, document := updateTyping currentId typing s.document } =
        s.saved currentId := by
      rw [saved, saved, hupdates]
      rfl
    rw [hsame]
    exact h.flag hstarted

theorem Follows.otherUser {userId : Uid} (typing : Bool) (h : Follows currentId s past)
    (hother : userId ≠ currentId) :
    Follows currentId { s with document := updateTyping userId typing s.document }
      (past ++ [.otherUser userId typing]) where
  exists_document := (isSome_updateTyping ..).trans h.exists_document
  counter := h.counter
  keystrokes := by simpa [TypingAction.isKeystroke] using h.keystrokes
  unfired := by simpa [TypingAction.isKeystroke, TypingAction.isStop] using h.unfired
  flag hstarted := by
    rw [← h.flag hstarted, typingFlag_saved h.exists_document, typingFlag_saved,
      typingFlag_update_of_ne hother]
    exact (isSome_updateTyping ..).trans h.exists_document

theorem step_follows {a : TypingAction} (h : Follows currentId s past)
    (hstep : step currentId s a = some s') : Follows currentId s' (past ++ [a]) := by
  cases a with
  | shouldChangeTextIn =>
    obtain rfl := Option.some.inj hstep
    exact h.start
  | typingCounterStop n =>
    obtain ⟨hn, hstep⟩ := Option.ite_none_right_eq_some.mp hstep
    obtain rfl := Option.some.inj hstep
    exact h.stop hn
  | updateData =>
    cases hupdates : s.updates with
    | nil => simp [step, hupdates] at hstep
    | cons typing updates =>
      simp only [step, hupdates, Option.some.injEq] at hstep
      obtain rfl := hstep
      exact h.updateData hupdates
  | otherUser userId typing =>
    obtain ⟨hother, hstep⟩ := Option.ite_none_right_eq_some.mp hstep
    obtain rfl := Option.some.inj hstep
    exact h.otherUser typing hother

theorem follows_of_exec {document : TypingDocument} {actions : List TypingAction}
    (hrun : Runs.exec (step currentId) (opened (some document)) actions = some s) :
    Follows currentId s actions :=
  Runs.exec_history (C := fun _ _ => True) (I := Follows currentId)
    (fun _ _ _ _ hI _ hstep => step_follows hI hstep) (follows_opened currentId document)
    (fun _ _ _ _ _ _ _ => trivial) hrun

theorem Follows.started (h : Follows currentId s past) (hkey : .shouldChangeTextIn ∈ past) :
    0 < s.keystrokes := by
  rw [h.keystrokes]
  exact List.countP_pos_iff.mpr ⟨_, hkey, rfl⟩

theorem Follows.flag_document (h : Follows currentId s past) (hkey : .shouldChangeTextIn ∈ past)
    (hdone : s.updates = []) :
    typingFlag currentId s.document = some (decide (0 < s.scheduled.length)) := by
  rw [← h.flag (h.started hkey), saved, hdone]
  rfl

end TypingRoom

open TypingRoom in
/-- Keystrokes, the calls that they schedule, requests that are done and requests of other
users follow one another in any order: the counter is the number of calls that have not
come, and once a key has been pressed the flag of the current user says, when the requests
issued so far have been done, whether there is one. -/
theorem typingCounter_follows_keystrokes (currentId : Uid) (document : TypingDocument)
    (actions : List TypingAction) (s : TypingRoom)
    (hrun : Runs.exec (step currentId) (opened (some document)) actions = some s) :
    s.typingCounter = s.scheduled.length ∧
    s.scheduled.length + actions.countP TypingAction.isStop = actions.countP TypingAction.isKeystroke ∧
    0 ≤ s.typingCounter ∧
    (.shouldChangeTextIn ∈ actions →
      typingFlag currentId (s.saved currentId) = some (decide (0 < s.scheduled.length)) ∧
      (s.updates = [] →
        typingFlag currentId s.document = some (decide (0 < s.scheduled.length)))) := by
  have h : Follows currentId s actions := follows_of_exec hrun
  refine ⟨h.counter, h.unfired, ?_, fun hkey => ⟨h.flag (h.started hkey), h.flag_document hkey⟩⟩
  rw [h.counter]
  exact Int.natCast_nonneg _

/-- Two keystrokes; the second call comes before the first one. -/
theorem typingCounter_follows_two_keystrokes :
    ∃ s, Runs.exec (TypingRoom.step "alice") (TypingRoom.opened (some beaTyping))
        [.shouldChangeTextIn, .shouldChangeTextIn, .updateData, .typingCounterStop 1, .updateData,
          .otherUser "bea" false, .typingCounterStop 0, .updateData] = some s ∧
      typingFlag "alice" s.document = some (decide (0 < s.scheduled.length)) := by
  obtain ⟨s, hrun, hdone⟩ : ∃ s, Runs.exec (TypingRoom.step "alice")
      (TypingRoom.opened (some beaTyping))
      [.shouldChangeTextIn, .shouldChangeTextIn, .updateData, .typingCounterStop 1, .updateData,
        .otherUser "bea" false, .typingCounterStop 0, .updateData] = some s ∧ s.updates = [] :=
    Runs.exists_of_any (by decide)
  exact ⟨s, hrun, ((typingCounter_follows_keystrokes "alice" beaTyping _ s hrun).2.2.2
    (by simp)).2 hdone⟩

end LiChat
