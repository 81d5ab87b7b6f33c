import LiChat.Session

/-!
# The profile of a signed-in user

Signing out and deleting the account change the device and the User document before the step
of Firebase Auth that can fail.  A login is complete before its profile has been fetched.
-/

namespace LiChat

/-- What `FUser.currentUser()` returns; the outer `none` is the trap on a stored profile that
cannot be read. -/
def FUser.currentUser (clock : Clock) (s : Session) : Option (Option FUser) :=
  match s.auth, s.currentUser with
  | some _, some dictionary => (FUser.ofDictionary clock.formatter clock.now dictionary).map some
  | _, _ => some none

namespace Session

theorem hasCurrentUser_eq (clock : Clock) (s : Session) :
    s.hasCurrentUser clock = (FUser.currentUser clock s).map Option.isSome := by
  unfold hasCurrentUser FUser.currentUser
  cases s.auth with
  | none => rfl
  | some uid =>
    cases s.currentUser with
    | none => rfl
    | some dictionary =>
      simp only [Option.map_map]
      rfl

/-- `deleteUser` of the settings: the entries of UserDefaults and the User document go before
Auth is asked to delete the user.  Both requests may fail. -/
def deleteUser (documentDeleted deleteFails : Bool) (s : Session) : Option Session := do
  let s := { s with pushId := none, currentUser := none }
  let currentId ← s.auth
  let s := if documentDeleted then { s with users := Function.update s.users currentId none } else s
  some { s with auth := if deleteFails then s.auth else none }

/-- The user `u` is signed in with the profile and the push id of before, and has the same
User document. -/
structure Usable (u : Uid) (s t : Session) : Prop where
  auth : t.auth = some u
  currentUser : t.currentUser = s.currentUser
  profile : ∀ clock, FUser.currentUser clock t = FUser.currentUser clock s
  pushId : t.pushId = s.pushId
  document : t.users u = s.users u

/-- After the failure, after the answer to the update that the logout has started, and after
its callback, the account is as it was. -/
def SurvivesLogout (u : Uid) (clock later : Clock) (updated : Bool) (s : Session) : Prop :=
  ∃ s', s.logOutCurrentUser clock true = some s' ∧
    Runs.Always step (Usable u s) s'
      [.serve s.requests.length updated, .runCallback s.callbacks.length later]

def SurvivesDeletion (u : Uid) (documentDeleted : Bool) (s : Session) : Prop :=
  ∃ s', s.deleteUser documentDeleted true = some s' ∧ Usable u s s'

variable {s : Session} {u : Uid}

theorem survivesLogout_iff (hauth : s.auth = some u) (clock later : Clock) (updated : Bool) :
    SurvivesLogout u clock later updated s ↔ s.pushId = none ∧ s.currentUser = none := by
  constructor
  · rintro ⟨s', hlogout, halways⟩
    obtain ⟨t, ht, hs'⟩ := Option.bind_eq_some_iff.mp hlogout
    obtain rfl := Option.some.inj hs'
    have hpush : t.pushId = none := pushId_updateCurrentUserInFirestore ht
    have husable := halways.head
    exact ⟨husable.pushId.symm.trans hpush, husable.currentUser.symm⟩
  · rintro ⟨hpush, hcurrent⟩
    -- without a profile no update is started
    have hremove : ({ s with pushId := none } : Session).removeOneSignalId clock =
        some { s with pushId := none } := by
      simp only [removeOneSignalId, updateCurrentUserOneSignalId, updateCurrentUserInFirestore,
        hcurrent]
    have hlogout : s.logOutCurrentUser clock true =
        some { s with pushId := none, currentUser := none } := by
      rw [logOutCurrentUser, hremove]
      rfl
    have hserve : ({ s with pushId := none, currentUser := none } : Session).step
        (.serve s.requests.length updated) = none := by
      simp only [step, List.getElem?_eq_none (Nat.le_refl _), Option.bind_eq_bind, Option.bind_none]
    refine ⟨_, hlogout, Runs.always_cons.mpr ⟨⟨hauth, hcurrent.symm, fun later' => ?_, hpush.symm, rfl⟩,
      fun s' hs' => ?_⟩⟩
    · simp only [FUser.currentUser, hcurrent]
    · rw [hserve] at hs'
      cases hs'

theorem survivesDeletion_iff (hauth : s.auth = some u) (documentDeleted : Bool) :
    SurvivesDeletion u documentDeleted s ↔
      (s.pushId = none ∧ s.currentUser = none) ∧ (documentDeleted = true → s.users u = none) := by
  have hdelete : s.deleteUser documentDeleted true = some
      { s with
        pushId := none
        currentUser := none
        users := if documentDeleted then Function.update s.users u none else s.users } := by
    unfold deleteUser
    simp only [hauth, Option.bind_eq_bind, Option.bind_some, if_true]
    cases documentDeleted with
    | true => simp
    | false => simp
  constructor
  · rintro ⟨s', hs', husable⟩
    obtain rfl := Option.some.inj (hdelete.symm.trans hs')
    refine ⟨⟨husable.pushId.symm, husable.currentUser.symm⟩, fun hdeleted => ?_⟩
    have hdocument : (if documentDeleted then Function.update s.users u none else s.users) u =
        s.users u := husable.document
    rw [if_pos hdeleted, Function.update_self] at hdocument
    exact hdocument.symm
  · rintro ⟨⟨hpush, hcurrent⟩, hnone⟩
    refine ⟨_, hdelete, hauth, hcurrent.symm, fun clock => ?_, hpush.symm, ?_⟩
    · simp only [FUser.currentUser, hcurrent]
    · show (if documentDeleted then Function.update s.users u none else s.users) u = s.users u
      split_ifs with hdeleted
      · rw [Function.update_self, hnone hdeleted]
      · rfl

/-- For all states of the device and of Firestore: an account survives a failed logout, and a
failed deletion, exactly when neither a push id nor a profile is stored on the device and, for
the deletion, the User document is not deleted. -/
theorem account_survives_iff (s : Session) (u : Uid) (hauth : s.auth = some u) (clock later : Clock)
    (updated documentDeleted : Bool) :
    (SurvivesLogout u clock later updated s ↔ s.pushId = none ∧ s.currentUser = none) ∧
    (SurvivesDeletion u documentDeleted s ↔
      (s.pushId = none ∧ s.currentUser = none) ∧ (documentDeleted = true → s.users u = none)) :=
  ⟨survivesLogout_iff hauth clock later updated, survivesDeletion_iff hauth documentDeleted⟩

def annSignedIn (currentUser : Option Dictionary) (pushId : Option String) : Session where
  auth := some "ann"
  currentUser := currentUser
  pushId := pushId
  users := fun u => some (storedProfile u)
  requests := []
  callbacks := []

theorem account_survives_without_profile :
    SurvivesLogout "ann" noon noon true (annSignedIn none none) ∧
    SurvivesDeletion "ann" false (annSignedIn none none) := by
  obtain ⟨hlogout, hdelete⟩ :=
    account_survives_iff (annSignedIn none none) "ann" rfl noon noon true false
  exact ⟨hlogout.mpr ⟨rfl, rfl⟩, hdelete.mpr ⟨⟨rfl, rfl⟩, nofun⟩⟩

/-- After a failed logout and after a failed deletion Ann has no profile, and after the
deletion no User document either. -/
theorem account_lost :
    ¬ SurvivesLogout "ann" noon noon true (annSignedIn (some (storedProfile "ann").1) (some "p")) ∧
    ¬ SurvivesDeletion "ann" true (annSignedIn (some (storedProfile "ann").1) (some "p")) := by
  constructor
  · intro h
    exact nomatch ((survivesLogout_iff rfl noon noon true).mp h).1
  · intro h
    exact nomatch ((survivesDeletion_iff rfl true).mp h).1.1

/-- `loginUserWith` completes right after it has sent the fetch of the profile: what
`FUser.currentUser()` returns then is the profile of the user who has signed in. -/
def LoginHasProfile (s : Session) : Action → Prop
  | .loginUserWith uid => ∀ clock, ∃ user,
      FUser.currentUser clock (s.loginUserWith uid) = some (some user) ∧ user.objectId = uid
  | _ => True

/-- The user finds the own profile on the device, and it can be read. -/
def FindsProfile (s : Session) : Action → Prop
  | .loginUserWith uid => ∃ dictionary, s.currentUser = some dictionary ∧ Owns uid dictionary ∧
      ∀ clock : Clock, (FUser.ofDictionary clock.formatter clock.now dictionary).isSome
  | _ => True

def Action.LogsOut : Action → Prop
  | .logOutCurrentUser _ _ => True
  | _ => False

/-- From a login on, as long as nobody logs out, `FUser.currentUser()` is not nil. -/
def UnwrapsSucceed (s : Session) (actions : List Action) : Prop :=
  ∀ before uid after t, before ++ .loginUserWith uid :: after <+: actions →
    (∀ a ∈ after, ¬ a.LogsOut) →
    Runs.exec step s (before ++ .loginUserWith uid :: after) = some t →
    ∀ clock, FUser.currentUser clock t ≠ some none

theorem loginHasProfile_iff (s : Session) (a : Action) : LoginHasProfile s a ↔ FindsProfile s a := by
  cases a with
  | loginUserWith uid =>
    have hcurrent : ∀ clock user, FUser.currentUser clock (s.loginUserWith uid) = some (some user) ↔
        ∃ dictionary, s.currentUser = some dictionary ∧
          FUser.ofDictionary clock.formatter clock.now dictionary = some user := by
      intro clock user
      simp only [FUser.currentUser, loginUserWith]
      cases s.currentUser with
      | none => simp
      | some dictionary => simp [Option.map_eq_some_iff]
    constructor
    · intro h
      obtain ⟨user, huser, rfl⟩ := h noon
      obtain ⟨dictionary, hdictionary, hread⟩ := (hcurrent noon user).mp huser
      refine ⟨dictionary, hdictionary, FUser.owns_of_ofDictionary hread, fun clock => ?_⟩
      obtain ⟨user', huser', -⟩ := h clock
      obtain ⟨dictionary', hdictionary', hread'⟩ := (hcurrent clock user').mp huser'
      obtain rfl := Option.some.inj (hdictionary.symm.trans hdictionary')
      exact Option.isSome_iff_exists.mpr ⟨user', hread'⟩
    · rintro ⟨dictionary, hdictionary, howns, hreads⟩ clock
      obtain ⟨user, hread⟩ := Option.isSome_iff_exists.mp (hreads clock)
      exact ⟨user, (hcurrent clock user).mpr ⟨dictionary, hdictionary, hread⟩,
        (FUser.owns_of_ofDictionary hread).unique howns⟩
  | _ => exact Iff.rfl

def HasStored (s : Session) : Prop := s.auth.isSome ∧ s.currentUser.isSome

theorem hasStored_saveUser {s s' : Session} {clock : Clock} {user : FUser} (hs : s.auth.isSome)
    (h : s.saveUser clock user = some s') : HasStored s' := by
  obtain ⟨data, -, h⟩ := Option.bind_eq_some_iff.mp h
  rw [← Option.some.inj h]
  exact ⟨hs, rfl⟩

theorem hasStored_step {s s' : Session} {a : Action} (hs : HasStored s) (ha : ¬ a.LogsOut)
    (h : s.step a = some s') : HasStored s' := by
  have hcongr : ∀ {t : Session}, t.auth = s.auth ∧ t.currentUser = s.currentUser → HasStored t := by
    rintro t ⟨hauth, hcurrent⟩
    rw [HasStored, hauth, hcurrent]
    exact hs
  cases a with
  | loginUserWith uid =>
    rw [← Option.some.inj h]
    exact ⟨rfl, hs.2⟩
  | registerUserWithEmail clock uid email firstName lastName avatar => exact hasStored_saveUser rfl h
  | registerUserWithPhone uid phoneNumber =>
    rw [← Option.some.inj h]
    exact ⟨rfl, hs.2⟩
  | logOutCurrentUser clock signOutFails => exact absurd trivial ha
  | updateCurrentUserInFirestore clock withValues =>
    exact hcongr (updateCurrentUserInFirestore_frame h)
  | startOneSignal clock userId pushToken => exact hcongr (startOneSignal_frame h)
  | serve i succeeds =>
    obtain ⟨request, -, h⟩ := Option.bind_eq_some_iff.mp h
    rw [← Option.some.inj h]
    exact hcongr (serveRequest_frame succeeds request _)
  | runCallback i clock =>
    obtain ⟨callback, -, h⟩ := Option.bind_eq_some_iff.mp h
    have hauth : ({ s with callbacks := s.callbacks.eraseIdx i } : Session).auth.isSome := hs.1
    cases callback with
    | fetchedCurrentUser userId snapshot =>
      cases snapshot with
      | none =>
        rw [← Option.some.inj h]
        exact hs
      | some data =>
        rw [← Option.some.inj h]
        exact ⟨hs.1, rfl⟩
    | fetchedUserToRegister userId phoneNumber snapshot =>
      cases snapshot with
      | none => exact hasStored_saveUser hauth h
      | some data =>
        obtain ⟨user, -, h⟩ := Option.bind_eq_some_iff.mp h
        split_ifs at h
        · exact hasStored_saveUser hauth h
        · exact hasStored_saveUser hauth h
    | updatedCurrentUser userId userObject =>
      rw [← Option.some.inj h]
      exact ⟨hs.1, rfl⟩
  | otherDevice v data =>
    rw [← Option.some.inj h]
    exact hs

theorem hasStored_exec {s t : Session} {actions : List Action} (hs : HasStored s)
    (hactions : ∀ a ∈ actions, ¬ a.LogsOut) (h : Runs.exec step s actions = some t) : HasStored t := by
  induction actions generalizing s with
  | nil => exact Option.some.inj h ▸ hs
  | cons a actions ih =>
    obtain ⟨s', hs', h⟩ := Option.bind_eq_some_iff.mp h
    obtain ⟨ha, hactions⟩ := List.forall_mem_cons.mp hactions
    exact ih (hasStored_step hs ha hs') hactions h

theorem HasStored.currentUser_ne {s : Session} (hs : HasStored s) (clock : Clock) :
    FUser.currentUser clock s ≠ some none := by
  obtain ⟨uid, hauth⟩ := Option.isSome_iff_exists.mp hs.1
  obtain ⟨dictionary, hcurrent⟩ := Option.isSome_iff_exists.mp hs.2
  simp only [FUser.currentUser, hauth, hcurrent]
  cases FUser.ofDictionary clock.formatter clock.now dictionary with
  | none => simp
  | some user => simp

theorem unwrapsSucceed_of_finds {s : Session} {actions : List Action}
    (h : Runs.Guarded step FindsProfile s actions) : UnwrapsSucceed s actions := by
  intro before uid after t hfront hafter ht clock
  rw [Runs.exec_append, Option.bind_eq_some_iff] at ht
  obtain ⟨s₀, hs₀, ht⟩ := ht
  rw [Runs.exec_cons, Option.bind_eq_some_iff] at ht
  obtain ⟨s₁, hs₁, ht⟩ := ht
  have hlogin : before ++ [.loginUserWith uid] <+: actions := by
    rw [← List.singleton_append, ← List.append_assoc] at hfront
    exact (List.prefix_append _ _).trans hfront
  obtain ⟨dictionary, hdictionary, -, -⟩ := h before _ s₀ s₁ hlogin hs₀ hs₁
  obtain rfl := Option.some.inj hs₁
  have hstored : HasStored (s₀.loginUserWith uid) := by
    rw [HasStored, loginUserWith, hdictionary]
    exact ⟨rfl, rfl⟩
  exact (hasStored_exec hstored hafter ht).currentUser_ne clock

/-- For all states that earlier sessions have left, all outcomes of the fetches and all orders
of the callbacks: every login completes with the user's profile, and no forced unwrap of it
fails until somebody logs out, exactly when every user who signs in finds the own profile on
the device. -/
theorem logins_have_profiles_iff (s : Session) (actions : List Action) :
    (Runs.Guarded step LoginHasProfile s actions ∧ UnwrapsSucceed s actions) ↔
      Runs.Guarded step FindsProfile s actions := by
  have hguard : Runs.Guarded step LoginHasProfile s actions ↔
      Runs.Guarded step FindsProfile s actions := by
    apply Runs.guarded_iff_of_always (I := fun _ => True)
    · exact Runs.always_of_step (fun _ _ _ _ _ => trivial) trivial actions
    · exact fun t a _ _ _ => loginHasProfile_iff t a
  rw [hguard]
  exact and_iff_left_of_imp unwrapsSucceed_of_finds

/-- Ann signs in on a new device.  Whether her document is found, is missing or the fetch fails,
she has no profile when the app opens; without the document she never gets one. -/
theorem login_without_profile :
    (∀ users, ¬ Runs.Guarded step LoginHasProfile (fresh users) [.loginUserWith "ann"]) ∧
    ¬ UnwrapsSucceed (fresh fun _ => none)
      [.loginUserWith "ann", .serve 0 true, .runCallback 0 noon] := by
  constructor
  · intro users h
    obtain ⟨user, huser, -⟩ := h [] (.loginUserWith "ann") (fresh users) _ List.prefix_rfl rfl rfl noon
    simp [FUser.currentUser, fresh, loginUserWith] at huser
  · intro h
    exact h [] "ann" [.serve 0 true, .runCallback 0 noon] _ List.prefix_rfl
      (by simp [Action.LogsOut]) rfl noon rfl

end Session

end LiChat
