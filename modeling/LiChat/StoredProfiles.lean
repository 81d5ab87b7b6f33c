import LiChat.General.Runs
import LiChat.User

/-!
# Stored profiles

`userDictionaryFrom` and `FUser.init(_dictionary:)` list the seventeen fields of a profile
independently of each other.  What is loaded is what has been saved, but for the fractions of
seconds in its timestamps.
-/

namespace LiChat

/-- The profile is as both initialisers leave it, has a push id, and its timestamps can be
written. -/
structure FUser.Storable (f : DateFormatter) (user : FUser) : Prop where
  pushId : user.pushId.isSome
  createdAt : f.InYears user.createdAt
  updatedAt : f.InYears user.updatedAt
  fullname : user.fullname = user.firstname ++ " " ++ user.lastname

instance (f : DateFormatter) (user : FUser) : Decidable (user.Storable f) :=
  decidable_of_iff (user.pushId.isSome ∧ f.InYears user.createdAt ∧ f.InYears user.updatedAt ∧
      user.fullname = user.firstname ++ " " ++ user.lastname)
    ⟨fun h => ⟨h.1, h.2.1, h.2.2.1, h.2.2.2⟩,
      fun h => ⟨h.pushId, h.createdAt, h.updatedAt, h.fullname⟩⟩

/-- The profile with its timestamps truncated to the second. -/
def FUser.truncated (user : FUser) : FUser :=
  { user with createdAt := truncate user.createdAt, updatedAt := truncate user.updatedAt }

/-- A profile is saved and loaded again, at the time `now`. -/
def saveAndLoad (f : DateFormatter) (user : FUser) (now : Date) : Option FUser := do
  let d ← userDictionaryFrom f user
  FUser.ofDictionary f now d

theorem truncate_truncate (date : Date) : truncate (truncate date) = truncate date := by
  rw [truncate, truncate, Int.floor_intCast]

theorem dateField_string {f : DateFormatter} {date : Date} (h : f.InYears date) (now : Date)
    {d : Dictionary} {key : String} (hd : d key = some (.string (f.string date))) :
    FUser.dateField f now d key = some (truncate date) := by
  rw [FUser.dateField, hd]
  show (if (f.string date).length ≠ 14 then some now else f.date (f.string date)) = _
  rw [if_neg (not_not.mpr (length_string f date)), DateFormatter.date_string_self h]

namespace FUser.Storable
variable {f : DateFormatter} {user : FUser}

theorem truncated (h : user.Storable f) : user.truncated.Storable f where
  pushId := h.pushId
  createdAt := by
    show f.InYears (truncate user.createdAt)
    rw [DateFormatter.InYears, wallClock_truncate]
    exact h.createdAt
  updatedAt := by
    show f.InYears (truncate user.updatedAt)
    rw [DateFormatter.InYears, wallClock_truncate]
    exact h.updatedAt
  fullname := h.fullname

theorem ofDictionary (h : user.Storable f) {d : Dictionary}
    (hd : userDictionaryFrom f user = some d) (now : Date) :
    FUser.ofDictionary f now d = some user.truncated := by
  obtain ⟨pushId, hpushId, hd⟩ := Option.bind_eq_some_iff.mp hd
  obtain rfl := Option.some.inj hd
  rw [FUser.ofDictionary, dateField_string h.createdAt now rfl, dateField_string h.updatedAt now rfl]
  -- no other field depends on anything but its own key
  show some { user.truncated with
    pushId := some pushId, fullname := user.firstname ++ " " ++ user.lastname } = _
  rw [← hpushId, ← h.fullname]
  rfl

theorem exists_dictionary (h : user.Storable f) : ∃ d, userDictionaryFrom f user = some d := by
  obtain ⟨pushId, hpushId⟩ := Option.isSome_iff_exists.mp h.pushId
  rw [userDictionaryFrom, hpushId]
  exact ⟨_, rfl⟩

theorem saveAndLoad (h : user.Storable f) (now : Date) :
    saveAndLoad f user now = some user.truncated := by
  obtain ⟨d, hd⟩ := h.exists_dictionary
  rw [LiChat.saveAndLoad, hd]
  exact h.ofDictionary hd now

end FUser.Storable

theorem truncated_truncated (user : FUser) : user.truncated.truncated = user.truncated := by
  show { user.truncated with
    createdAt := truncate (truncate user.createdAt)
    updatedAt := truncate (truncate user.updatedAt) } = user.truncated
  rw [truncate_truncate, truncate_truncate]
  rfl

theorem userDictionaryFrom_truncated (f : DateFormatter) (user : FUser) :
    userDictionaryFrom f user.truncated = userDictionaryFrom f user := by
  rw [userDictionaryFrom, userDictionaryFrom]
  show (user.pushId.bind fun pushId => _) = user.pushId.bind fun pushId => _
  simp only [FUser.truncated, string_truncate]

theorem exec_saveAndLoad_truncated {f : DateFormatter} {user : FUser} (h : user.Storable f)
    (clocks : List Date) :
    Runs.exec (saveAndLoad f) user.truncated clocks = some user.truncated := by
  induction clocks with
  | nil => rfl
  | cons now clocks ih =>
    rw [Runs.exec_cons, h.truncated.saveAndLoad, truncated_truncated]
    exact ih

/-- Every field of a loaded profile is the one that has been saved, timestamps to the second;
it is saved as the same dictionary again, and any number of cycles leaves it as it is. -/
theorem profile_survives_storage (f : DateFormatter) (user : FUser) (h : user.Storable f) :
    ∃ d, userDictionaryFrom f user = some d ∧
      (∀ now, FUser.ofDictionary f now d = some user.truncated) ∧
      userDictionaryFrom f user.truncated = some d ∧
      ∀ now clocks, Runs.exec (saveAndLoad f) user (now :: clocks) = some user.truncated := by
  obtain ⟨d, hd⟩ := h.exists_dictionary
  refine ⟨d, hd, h.ofDictionary hd, (userDictionaryFrom_truncated f user).trans hd, ?_⟩
  intro now clocks
  rw [Runs.exec_cons, h.saveAndLoad now]
  exact exec_saveAndLoad_truncated h clocks

def aliceStored : FUser :=
  FUser.make "alice" (some "push") (86400 * 737093 + 1 / 2) (86400 * 737093 + 1 / 2) "a@example.com"
    "Alice" "Liddell" "" "email" "+32470" "Ghent" "Belgium"

theorem profile_survives_storage_alice :
    ∃ d, userDictionaryFrom (dateFormatter 3600) aliceStored = some d ∧
      FUser.ofDictionary (dateFormatter 3600) 0 d = some aliceStored.truncated := by
  have hstorable : aliceStored.Storable (dateFormatter 3600) := by decide +kernel
  obtain ⟨d, hd, hloaded, -⟩ := profile_survives_storage (dateFormatter 3600) aliceStored hstorable
  exact ⟨d, hd, hloaded 0⟩

end LiChat
