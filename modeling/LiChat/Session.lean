import LiChat.General.Runs
import LiChat.User
import Mathlib.Logic.Function.Basic

/-!
# The locally stored profile of the signed-in user

UserDefaults holds a copy of the current user's profile.  Logins, logouts and
profile updates change it, partly in Firestore callbacks that arrive in any order
and after any delay.
-/

namespace LiChat

/-- A profile of the user `u`. -/
abbrev Profile (u : Uid) := {d : Dictionary // Owns u d}

/-- The argument of `updateCurrentUserInFirestore`.  No caller names kOBJECTID. -/
structure WithValues where
  values : Dictionary
  objectId : values kOBJECTID = none

def WithValues.ofList (entries : List (String × Value)) (h : ∀ e ∈ entries, e.1 ≠ kOBJECTID) :
    WithValues where
  values := Dictionary.ofList entries
  objectId := by
    apply List.lookup_eq_none_iff.mpr
    intro e he
    exact bne_iff_ne.mpr (h e he).symm

theorem Owns.setValuesForKeys {u : Uid} {d values : Dictionary} (h : Owns u d)
    (hvalues : values kOBJECTID = none) : Owns u (d.setValuesForKeys values) := by
  unfold Owns
  rw [Dictionary.setValuesForKeys_of_none hvalues]
  exact h

/-- `userDictionaryFrom`, with the owner of the result. -/
def profileFrom (f : DateFormatter) (user : FUser) : Option (Profile user.objectId) :=
  match h : userDictionaryFrom f user with
  | none => none
  | some d => some ⟨d, owns_userDictionaryFrom h⟩

/-- `Date()` and the formatter at the time of a step. -/
structure Clock where
  formatter : DateFormatter
  now : Date

/-- The User collection: a document is the profile of the user whose id names it. -/
abbrev Users := (u : Uid) → Option (Profile u)

/-- A request that Firestore has not acted upon. -/
inductive Request where
  | fetchCurrentUser (userId : Uid)
  | fetchUserToRegister (userId : Uid) (phoneNumber : String)
  | updateData (userId : Uid) (withValues : WithValues) (userObject : Dictionary)
  | setData (userId : Uid) (data : Profile userId)

/-- An answer whose completion handler has not run; answers whose handler does
nothing to the device are left out. -/
inductive Callback where
  | fetchedCurrentUser (userId : Uid) (snapshot : Option (Profile userId))
  | fetchedUserToRegister (userId : Uid) (phoneNumber : String) (snapshot : Option (Profile userId))
  | updatedCurrentUser (userId : Uid) (userObject : Dictionary)

/-- The user in whose session the callback's request was made. -/
def Callback.userId : Callback → Uid
  | fetchedCurrentUser userId _ => userId
  | fetchedUserToRegister userId _ _ => userId
  | updatedCurrentUser userId _ => userId

/-- The completion handler stores a profile: all but that of a fetch that found no
document. -/
def Callback.Stores : Callback → Prop
  | fetchedCurrentUser _ snapshot => snapshot.isSome
  | _ => True

/-- The copy that an update has made is a profile of the user who made it. -/
def Request.Owned : Request → Prop
  | updateData userId _ userObject => Owns userId userObject
  | _ => True

def Callback.Owned : Callback → Prop
  | updatedCurrentUser userId userObject => Owns userId userObject
  | _ => True

/-- Firebase Auth's current user, the two entries of UserDefaults, Firestore, and
what is under way between the device and Firestore. -/
structure Session where
  auth : Option Uid
  currentUser : Option Dictionary
  pushId : Option String
  users : Users
  requests : List Request
  callbacks : List Callback

namespace Session

def fresh (users : Users) : Session := ⟨none, none, none, users, [], []⟩

def saveUserLocally (user : FUser) (data : Profile user.objectId) (s : Session) : Session :=
  { s with currentUser := some data.1 }

def saveUserToFirestore (user : FUser) (data : Profile user.objectId) (s : Session) : Session :=
  { s with requests := s.requests ++ [.setData user.objectId data] }

/-- `saveUserLocally` and `saveUserToFirestore`, which always stand together. -/
def saveUser (clock : Clock) (user : FUser) (s : Session) : Option Session := do
  let data ← profileFrom clock.formatter user
  some (saveUserToFirestore user data (saveUserLocally user data s))

def updateCurrentUserInFirestore (clock : Clock) (withValues : WithValues) (s : Session) :
    Option Session :=
  match s.currentUser with
  | none => some s
  | some dictionary => do
    let currentUserId ← s.auth
    let updatedAt := clock.formatter.string clock.now
    let tempWithValues : Dictionary := fun key =>
      if key = kUPDATEDAT then some (.string updatedAt) else withValues.values key
    let userObject := dictionary.setValuesForKeys tempWithValues
    some { s with requests := s.requests ++ [.updateData currentUserId withValues userObject] }

def updateCurrentUserOneSignalId (clock : Clock) (newId : String) : Session → Option Session :=
  updateCurrentUserInFirestore clock (WithValues.ofList [(kPUSHID, .string newId)]
    (by simp [kPUSHID, kOBJECTID]))

def setOneSignalId (clock : Clock) (pushId : String) : Session → Option Session :=
  updateCurrentUserOneSignalId clock pushId

def removeOneSignalId (clock : Clock) : Session → Option Session :=
  updateCurrentUserOneSignalId clock ""

/-- `FUser.currentUser() != nil`; building the user may trap. -/
def hasCurrentUser (clock : Clock) (s : Session) : Option Bool :=
  match s.auth, s.currentUser with
  | some _, some dictionary =>
    (FUser.ofDictionary clock.formatter clock.now dictionary).map fun _ => true
  | _, _ => some false

def updateOneSignalId (clock : Clock) (s : Session) : Option Session := do
  if ← s.hasCurrentUser clock then
    match s.pushId with
    | some pushId => s.setOneSignalId clock pushId
    | none => s.removeOneSignalId clock
  else some s

def startOneSignal (clock : Clock) (userId pushToken : Option String) (s : Session) :
    Option Session :=
  let s := if pushToken.isSome then { s with pushId := userId } else s
  s.updateOneSignalId clock

/-- The completion handler of a successful `signIn`. -/
def loginUserWith (uid : Uid) (s : Session) : Session :=
  { s with auth := some uid, requests := s.requests ++ [.fetchCurrentUser uid] }

/-- The completion handler of a successful `createUser`. -/
def registerUserWithEmail (clock : Clock) (uid : Uid) (email firstName lastName avatar : String)
    (s : Session) : Option Session :=
  let fUser := FUser.make uid (some "") clock.now clock.now email firstName lastName avatar kEMAIL
    "" "" ""
  { s with auth := some uid }.saveUser clock fUser

/-- The completion handler of a successful `signInAndRetrieveData`. -/
def registerUserWithPhone (uid : Uid) (phoneNumber : String) (s : Session) : Session :=
  { s with
    auth := some uid
    requests := s.requests ++ [.fetchUserToRegister uid phoneNumber] }

def logOutCurrentUser (clock : Clock) (signOutFails : Bool) (s : Session) : Option Session := do
  let s ← { s with pushId := none }.removeOneSignalId clock
  some { s with currentUser := none, auth := if signOutFails then s.auth else none }

/-- Firestore acts on a request, or the request fails. -/
def serveRequest (succeeds : Bool) (request : Request) (s : Session) : Session :=
  if succeeds then
    match request with
    | .fetchCurrentUser userId =>
      { s with callbacks := s.callbacks ++ [.fetchedCurrentUser userId (s.users userId)] }
    | .fetchUserToRegister userId phoneNumber =>
      { s with
        callbacks := s.callbacks ++ [.fetchedUserToRegister userId phoneNumber (s.users userId)] }
    | .updateData userId withValues userObject =>
      match s.users userId with
      | none => s
      | some data =>
        { s with
          users := Function.update s.users userId (some ⟨data.1.setValuesForKeys withValues.values,
            data.2.setValuesForKeys withValues.objectId⟩)
          callbacks := s.callbacks ++ [.updatedCurrentUser userId userObject] }
    | .setData userId data => { s with users := Function.update s.users userId (some data) }
  else s

def registerPhoneUser (clock : Clock) (userId : Uid) (phoneNumber : String) (s : Session) :
    Option Session :=
  s.saveUser clock (FUser.make userId (some "") clock.now clock.now "" "" "" "" kPHONE
    phoneNumber "" "")

def runCallback (clock : Clock) (callback : Callback) (s : Session) : Option Session :=
  match callback with
  | .fetchedCurrentUser _ none => some s
  | .fetchedCurrentUser _ (some data) => some { s with currentUser := some data.1 }
  | .fetchedUserToRegister userId phoneNumber none => s.registerPhoneUser clock userId phoneNumber
  | .fetchedUserToRegister userId phoneNumber (some data) => do
    let user ← FUser.ofDictionary clock.formatter clock.now data.1
    if user.firstname ≠ "" then s.saveUser clock user
    else s.registerPhoneUser clock userId phoneNumber
  | .updatedCurrentUser _ userObject => some { s with currentUser := some userObject }

inductive Action where
  | loginUserWith (uid : Uid)
  | registerUserWithEmail (clock : Clock) (uid : Uid) (email firstName lastName avatar : String)
  | registerUserWithPhone (uid : Uid) (phoneNumber : String)
  | logOutCurrentUser (clock : Clock) (signOutFails : Bool)
  | updateCurrentUserInFirestore (clock : Clock) (withValues : WithValues)
  | startOneSignal (clock : Clock) (userId pushToken : Option String)
  | serve (i : ℕ) (succeeds : Bool)
  | runCallback (i : ℕ) (clock : Clock)
  | otherDevice (u : Uid) (data : Profile u)

/-- One step; `none` is a trap or an action that is not there to take. -/
def step (s : Session) : Action → Option Session
  | .loginUserWith uid => some (s.loginUserWith uid)
  | .registerUserWithEmail clock uid email firstName lastName avatar =>
    s.registerUserWithEmail clock uid email firstName lastName avatar
  | .registerUserWithPhone uid phoneNumber => some (s.registerUserWithPhone uid phoneNumber)
  | .logOutCurrentUser clock signOutFails => s.logOutCurrentUser clock signOutFails
  | .updateCurrentUserInFirestore clock withValues => s.updateCurrentUserInFirestore clock withValues
  | .startOneSignal clock userId pushToken => s.startOneSignal clock userId pushToken
  | .serve i succeeds => do
    let request ← s.requests[i]?
    some ({ s with requests := s.requests.eraseIdx i }.serveRequest succeeds request)
  | .runCallback i clock => do
    let callback ← s.callbacks[i]?
    { s with callbacks := s.callbacks.eraseIdx i }.runCallback clock callback
  | .otherDevice u data => some { s with users := Function.update s.users u (some data) }

/-- The profile that is stored while `u` is signed in is the profile of `u`. -/
def Isolated (s : Session) : Prop := ∀ u p, s.auth = some u → s.currentUser = some p → Owns u p

structure Owned (s : Session) : Prop where
  requests : ∀ request ∈ s.requests, request.Owned
  callbacks : ∀ callback ∈ s.callbacks, callback.Owned

/-- A user signs in on a device without a stored profile or with the user's own, and
a profile is stored by a callback of the user who is signed in, or of anybody while
nobody is. -/
def OwnProfile (s : Session) : Action → Prop
  | .loginUserWith uid => ∀ p, s.currentUser = some p → Owns uid p
  | .registerUserWithPhone uid _ => ∀ p, s.currentUser = some p → Owns uid p
  | .runCallback i _ => ∀ callback, s.callbacks[i]? = some callback → callback.Stores →
      ∀ u, s.auth = some u → callback.userId = u
  | _ => True

theorem isolated_congr {s s' : Session} (hauth : s'.auth = s.auth)
    (hcurrent : s'.currentUser = s.currentUser) : Isolated s' ↔ Isolated s := by
  unfold Isolated
  rw [hauth, hcurrent]

theorem isolated_signedIn {s : Session} {uid : Uid} (hauth : s.auth = some uid) :
    Isolated s ↔ ∀ p, s.currentUser = some p → Owns uid p := by
  unfold Isolated
  rw [hauth]
  simp only [Option.some.injEq]
  exact ⟨fun h p hp => h uid p rfl hp, fun h u p hu hp => hu ▸ h p hp⟩

theorem isolated_stored {s : Session} {v : Uid} {p : Dictionary} (hcurrent : s.currentUser = some p)
    (hp : Owns v p) : Isolated s ↔ ∀ u, s.auth = some u → v = u := by
  constructor
  · intro h u hauth
    exact hp.unique (h u p hauth hcurrent)
  · intro h u q hauth hq
    rw [hcurrent, Option.some.injEq] at hq
    rw [← h u hauth, ← hq]
    exact hp

theorem Owned.addRequest {s : Session} {request : Request} (h : Owned s) (hr : request.Owned) :
    Owned { s with requests := s.requests ++ [request] } where
  requests := by
    intro r hr'
    rcases List.mem_append.mp hr' with hr' | hr'
    · exact h.requests r hr'
    · rw [List.mem_singleton.mp hr']
      exact hr
  callbacks := h.callbacks

theorem Owned.addCallback {s : Session} {callback : Callback} (h : Owned s) (hc : callback.Owned) :
    Owned { s with callbacks := s.callbacks ++ [callback] } where
  requests := h.requests
  callbacks := by
    intro c hc'
    rcases List.mem_append.mp hc' with hc' | hc'
    · exact h.callbacks c hc'
    · rw [List.mem_singleton.mp hc']
      exact hc

theorem saveUser_spec {clock : Clock} {user : FUser} {s s' : Session}
    (h : s.saveUser clock user = some s') (hO : Owned s) :
    Owned s' ∧ s'.auth = s.auth ∧ ∃ p, s'.currentUser = some p ∧ Owns user.objectId p := by
  obtain ⟨data, -, h⟩ := Option.bind_eq_some_iff.mp h
  obtain rfl := Option.some.inj h
  exact ⟨(⟨hO.requests, hO.callbacks⟩ : Owned (saveUserLocally user data s)).addRequest trivial, rfl,
    data.1, rfl, data.2⟩

/-- An update changes neither the signed-in user nor the stored profile; its callback will. -/
theorem updateCurrentUserInFirestore_frame {clock : Clock} {withValues : WithValues} {s s' : Session}
    (h : s.updateCurrentUserInFirestore clock withValues = some s') :
    s'.auth = s.auth ∧ s'.currentUser = s.currentUser := by
  unfold updateCurrentUserInFirestore at h
  split at h
  · rw [← Option.some.inj h]
    exact ⟨rfl, rfl⟩
  · obtain ⟨u, -, h⟩ := Option.bind_eq_some_iff.mp h
    rw [← Option.some.inj h]
    exact ⟨rfl, rfl⟩

theorem pushId_updateCurrentUserInFirestore {clock : Clock} {withValues : WithValues}
    {s s' : Session} (h : s.updateCurrentUserInFirestore clock withValues = some s') :
    s'.pushId = s.pushId := by
  unfold updateCurrentUserInFirestore at h
  split at h
  · rw [← Option.some.inj h]
  · obtain ⟨u, -, h⟩ := Option.bind_eq_some_iff.mp h
    rw [← Option.some.inj h]

theorem startOneSignal_frame {clock : Clock} {userId pushToken : Option String} {s s' : Session}
    (h : s.startOneSignal clock userId pushToken = some s') :
    s'.auth = s.auth ∧ s'.currentUser = s.currentUser := by
  unfold startOneSignal at h
  set t := if pushToken.isSome then { s with pushId := userId } else s with ht
  have hsame : t.auth = s.auth ∧ t.currentUser = s.currentUser := by
    rw [ht]
    split_ifs <;> exact ⟨rfl, rfl⟩
  rw [← hsame.1, ← hsame.2]
  obtain ⟨b, -, h⟩ := Option.bind_eq_some_iff.mp h
  split_ifs at h
  · split at h
    · exact updateCurrentUserInFirestore_frame h
    · exact updateCurrentUserInFirestore_frame h
  · rw [← Option.some.inj h]
    exact ⟨rfl, rfl⟩

theorem serveRequest_frame (succeeds : Bool) (request : Request) (s : Session) :
    (s.serveRequest succeeds request).auth = s.auth ∧
      (s.serveRequest succeeds request).currentUser = s.currentUser := by
  unfold serveRequest
  split_ifs
  · cases request with
    | updateData userId withValues userObject =>
      dsimp only
      split
      · exact ⟨rfl, rfl⟩
      · exact ⟨rfl, rfl⟩
    | _ => exact ⟨rfl, rfl⟩
  · exact ⟨rfl, rfl⟩

theorem updateCurrentUserInFirestore_owned {clock : Clock} {withValues : WithValues} {s s' : Session}
    (h : s.updateCurrentUserInFirestore clock withValues = some s') (hO : Owned s)
    (hI : Isolated s) : Owned s' := by
  unfold updateCurrentUserInFirestore at h
  split at h
  case h_1 =>
    obtain rfl := Option.some.inj h
    exact hO
  case h_2 dictionary hcurrent =>
    obtain ⟨u, hauth, h⟩ := Option.bind_eq_some_iff.mp h
    obtain rfl := Option.some.inj h
    have hkey : kOBJECTID ≠ kUPDATEDAT := by decide
    -- the copy is made from the stored profile, which belongs to the signed-in user
    refine hO.addRequest ((hI u dictionary hauth hcurrent).setValuesForKeys ?_)
    rw [if_neg hkey]
    exact withValues.objectId

theorem startOneSignal_owned {clock : Clock} {userId pushToken : Option String} {s s' : Session}
    (h : s.startOneSignal clock userId pushToken = some s') (hO : Owned s) (hI : Isolated s) :
    Owned s' := by
  unfold startOneSignal at h
  set t := if pushToken.isSome then { s with pushId := userId } else s with ht
  have hOt : Owned t := by
    rw [ht]
    split_ifs
    · exact ⟨hO.requests, hO.callbacks⟩
    · exact hO
  have hIt : Isolated t := by
    rw [ht]
    split_ifs
    · exact hI
    · exact hI
  obtain ⟨b, -, h⟩ := Option.bind_eq_some_iff.mp h
  cases b with
  | false =>
    obtain rfl := Option.some.inj h
    exact hOt
  | true =>
    rw [if_pos rfl] at h
    split at h
    · exact updateCurrentUserInFirestore_owned h hOt hIt
    · exact updateCurrentUserInFirestore_owned h hOt hIt

theorem serveRequest_owned (succeeds : Bool) {request : Request} {s : Session} (hO : Owned s)
    (hr : request.Owned) : Owned (s.serveRequest succeeds request) := by
  cases succeeds with
  | false => exact hO
  | true =>
    cases request with
    | fetchCurrentUser userId => exact hO.addCallback trivial
    | fetchUserToRegister userId phoneNumber => exact hO.addCallback trivial
    | setData userId data => exact ⟨hO.requests, hO.callbacks⟩
    | updateData userId withValues userObject =>
      simp only [serveRequest, if_true]
      split
      · exact hO
      · have hadd := hO.addCallback
          (show (Callback.updatedCurrentUser userId userObject).Owned from hr)
        exact ⟨hadd.requests, hadd.callbacks⟩

theorem runCallback_spec {clock : Clock} {callback : Callback} {s s' : Session}
    (h : s.runCallback clock callback = some s') (hO : Owned s) (hc : callback.Owned) :
    Owned s' ∧ s'.auth = s.auth ∧
      (callback.Stores → ∃ p, s'.currentUser = some p ∧ Owns callback.userId p) ∧
      (¬ callback.Stores → s'.currentUser = s.currentUser) := by
  have hregister : ∀ userId phoneNumber, s.registerPhoneUser clock userId phoneNumber = some s' →
      Owned s' ∧ s'.auth = s.auth ∧ ∃ p, s'.currentUser = some p ∧ Owns userId p :=
    fun userId phoneNumber h => saveUser_spec h hO
  cases callback with
  | fetchedCurrentUser userId snapshot =>
    cases snapshot with
    | none =>
      obtain rfl := Option.some.inj h
      exact ⟨hO, rfl, fun hs => absurd hs Bool.false_ne_true, fun _ => rfl⟩
    | some data =>
      obtain rfl := Option.some.inj h
      refine ⟨⟨hO.requests, hO.callbacks⟩, rfl, fun _ => ⟨data.1, rfl, data.2⟩, fun hs => ?_⟩
      exact absurd rfl hs
  | fetchedUserToRegister userId phoneNumber snapshot =>
    suffices hspec : Owned s' ∧ s'.auth = s.auth ∧ ∃ p, s'.currentUser = some p ∧ Owns userId p from
      ⟨hspec.1, hspec.2.1, fun _ => hspec.2.2, fun hs => absurd trivial hs⟩
    cases snapshot with
    | none => exact hregister userId phoneNumber h
    | some data =>
      obtain ⟨user, huser, h⟩ := Option.bind_eq_some_iff.mp h
      -- a document without a first name is replaced by a new one
      split_ifs at h
      · have hid : user.objectId = userId := (FUser.owns_of_ofDictionary huser).unique data.2
        rw [← hid]
        exact saveUser_spec h hO
      · exact hregister userId phoneNumber h
  | updatedCurrentUser userId userObject =>
    obtain rfl := Option.some.inj h
    refine ⟨⟨hO.requests, hO.callbacks⟩, rfl, fun _ => ⟨userObject, rfl, hc⟩, fun hs => ?_⟩
    exact absurd trivial hs

theorem step_isolated {s s' : Session} {a : Action} (hO : Owned s) (hI : Isolated s)
    (h : s.step a = some s') : Owned s' ∧ (Isolated s' ↔ OwnProfile s a) := by
  have hkeeps : s'.auth = s.auth ∧ s'.currentUser = s.currentUser → Isolated s' :=
    fun hframe => (isolated_congr hframe.1 hframe.2).mpr hI
  cases a with
  | loginUserWith uid =>
    obtain rfl := Option.some.inj h
    have hadd := hO.addRequest (show (Request.fetchCurrentUser uid).Owned from trivial)
    exact ⟨⟨hadd.requests, hadd.callbacks⟩, isolated_signedIn rfl⟩
  | registerUserWithEmail clock uid email firstName lastName avatar =>
    -- the new profile is stored at once
    obtain ⟨hO', hauth, p, hcurrent, hp⟩ := saveUser_spec h ⟨hO.requests, hO.callbacks⟩
    refine ⟨hO', iff_of_true ((isolated_stored hcurrent hp).mpr fun u hu => ?_) trivial⟩
    exact Option.some.inj (hauth.symm.trans hu)
  | registerUserWithPhone uid phoneNumber =>
    obtain rfl := Option.some.inj h
    have hadd := hO.addRequest (show (Request.fetchUserToRegister uid phoneNumber).Owned from trivial)
    exact ⟨⟨hadd.requests, hadd.callbacks⟩, isolated_signedIn rfl⟩
  | logOutCurrentUser clock signOutFails =>
    obtain ⟨t, ht, h⟩ := Option.bind_eq_some_iff.mp h
    obtain rfl := Option.some.inj h
    -- the update copies the profile before the profile is removed
    have hI' : Isolated { s with pushId := none } := hI
    have hO' := updateCurrentUserInFirestore_owned ht ⟨hO.requests, hO.callbacks⟩ hI'
    exact ⟨⟨hO'.requests, hO'.callbacks⟩, iff_of_true (fun _ _ _ hp => absurd hp nofun) trivial⟩
  | updateCurrentUserInFirestore clock withValues =>
    have hisolated := hkeeps (updateCurrentUserInFirestore_frame h)
    exact ⟨updateCurrentUserInFirestore_owned h hO hI, iff_of_true hisolated trivial⟩
  | startOneSignal clock userId pushToken =>
    have hisolated := hkeeps (startOneSignal_frame h)
    exact ⟨startOneSignal_owned h hO hI, iff_of_true hisolated trivial⟩
  | serve i succeeds =>
    obtain ⟨request, hrequest, h⟩ := Option.bind_eq_some_iff.mp h
    obtain rfl := Option.some.inj h
    have hrest : Owned { s with requests := s.requests.eraseIdx i } :=
      ⟨fun r hr => hO.requests r (List.mem_of_mem_eraseIdx hr), hO.callbacks⟩
    have hisolated := hkeeps (serveRequest_frame succeeds request _)
    have howned := hO.requests request (List.mem_of_getElem? hrequest)
    exact ⟨serveRequest_owned succeeds hrest howned, iff_of_true hisolated trivial⟩
  | runCallback i clock =>
    obtain ⟨callback, hcallback, h⟩ := Option.bind_eq_some_iff.mp h
    have hrest : Owned { s with callbacks := s.callbacks.eraseIdx i } :=
      ⟨hO.requests, fun c hc => hO.callbacks c (List.mem_of_mem_eraseIdx hc)⟩
    obtain ⟨hO', hauth, hstores, hnot⟩ :=
      runCallback_spec h hrest (hO.callbacks callback (List.mem_of_getElem? hcallback))
    refine ⟨hO', ?_⟩
    have hcond : OwnProfile s (.runCallback i clock) ↔
        (callback.Stores → ∀ u, s.auth = some u → callback.userId = u) := by
      simp only [OwnProfile, hcallback, Option.some.injEq, forall_eq']
    rw [hcond]
    by_cases hs : callback.Stores
    · obtain ⟨p, hcurrent, hp⟩ := hstores hs
      rw [isolated_stored hcurrent hp, hauth]
      exact ⟨fun h _ => h, fun h => h hs⟩
    · exact iff_of_true ((isolated_congr hauth (hnot hs)).mpr hI) fun h => absurd h hs
  | otherDevice u data =>
    obtain rfl := Option.some.inj h
    exact ⟨⟨hO.requests, hO.callbacks⟩, iff_of_true hI trivial⟩

/-- In whatever order the callbacks arrive: the stored profile always belongs to the
user who is signed in exactly when every user signs in on a device without the
profile of somebody else, and every callback that stores a profile runs while
nobody is signed in or the user of its own session is. -/
theorem session_isolated_iff (users : Users) (actions : List Action) :
    Runs.Always step Isolated (fresh users) actions ↔
      Runs.Guarded step OwnProfile (fresh users) actions := by
  apply Runs.always_iff_guarded (I := Owned)
  · intro s a s' hO hI h
    exact step_isolated hO hI h
  · exact ⟨fun _ hr => absurd hr List.not_mem_nil, fun _ hc => absurd hc List.not_mem_nil⟩
  · exact fun _ _ hauth => absurd hauth nofun

def storedProfile (u : Uid) : Profile u :=
  ⟨Dictionary.ofList [(kOBJECTID, .string u), (kFIRSTNAME, .string u), (kPUSHID, .string "")], by
    simp [Owns, Dictionary.ofList]⟩

def noon : Clock := ⟨dateFormatter 0, 737094 * 86400 + 43200⟩

/-- Ann logs out, Bea logs in, and the answer to the update that Ann's logout has
started comes last: it stores Ann's profile while Bea is signed in. -/
theorem session_isolated_fails_late_update :
    ¬ Runs.Always step Isolated (fresh fun u => some (storedProfile u))
      [.loginUserWith "ann", .serve 0 true, .runCallback 0 noon, .logOutCurrentUser noon false,
        .loginUserWith "bea", .serve 1 true, .runCallback 0 noon, .serve 0 true,
        .runCallback 0 noon] := by
  intro h
  have howner := h.last rfl "bea" _ rfl rfl
  exact absurd howner (by decide)

end Session

end LiChat
