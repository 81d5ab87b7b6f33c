import LiChat.Constants
import LiChat.DateFormat

/-!
# User profiles

A profile lives as an `FUser` object in the app and as a dictionary in Firestore
and in UserDefaults.  Forced casts and forced unwraps of the source are `none`
here.
-/

namespace LiChat

/-- A Firebase user id. -/
abbrev Uid := String

inductive Value where
  | string (s : String)
  | bool (b : Bool)
  | strings (l : List String)
  deriving DecidableEq, Repr

abbrev Dictionary := String → Option Value

namespace Dictionary

def ofList (entries : List (String × Value)) : Dictionary := fun key => entries.lookup key

/-- `setValuesForKeys`: the new values win. -/
def setValuesForKeys (d values : Dictionary) : Dictionary := fun key => (values key).or (d key)

theorem setValuesForKeys_of_none {d values : Dictionary} {key : String} (h : values key = none) :
    d.setValuesForKeys values key = d key := by
  simp [setValuesForKeys, h]

end Dictionary

namespace Value

def asString : Value → Option String
  | .string s => some s
  | _ => none

@[simp] theorem asString_eq_some {v : Value} {s : String} :
    v.asString = some s ↔ v = .string s := by
  cases v <;> simp [asString]

def asBool : Value → Option Bool
  | .bool b => some b
  | _ => none

def asStrings : Value → Option (List String)
  | .strings l => some l
  | _ => none

end Value

structure FUser where
  objectId : Uid
  pushId : Option String
  createdAt : Date
  updatedAt : Date
  email : String
  firstname : String
  lastname : String
  fullname : String
  avatar : String
  isOnline : Bool
  phoneNumber : String
  countryCode : String
  country : String
  city : String
  contacts : List String
  blockedUsers : List Uid
  loginMethod : String
  deriving DecidableEq, Repr

namespace FUser

def make (objectId : Uid) (pushId : Option String) (createdAt updatedAt : Date)
    (email firstname lastname avatar loginMethod phoneNumber city country : String) : FUser where
  objectId := objectId
  pushId := pushId
  createdAt := createdAt
  updatedAt := updatedAt
  email := email
  firstname := firstname
  lastname := lastname
  fullname := firstname ++ " " ++ lastname
  avatar := avatar
  isOnline := true
  phoneNumber := phoneNumber
  countryCode := ""
  country := country
  city := city
  contacts := []
  blockedUsers := []
  loginMethod := loginMethod

/-- A field with a default for a missing key; a value of another type traps. -/
def field {β : Type} (cast : Value → Option β) (default : β) (d : Dictionary) (key : String) :
    Option β :=
  match d key with
  | none => some default
  | some v => cast v

/-- A date field: the current time when it is missing or not 14 characters long. -/
def dateField (f : DateFormatter) (now : Date) (d : Dictionary) (key : String) : Option Date :=
  match d key with
  | none => some now
  | some v => do
    let s ← v.asString
    if s.length ≠ 14 then some now else f.date s

/-- `init(_dictionary:)`, at the time `now`. -/
def ofDictionary (f : DateFormatter) (now : Date) (d : Dictionary) : Option FUser := do
  let objectId ← (← d kOBJECTID).asString
  let pushId := (d kPUSHID).bind Value.asString
  let createdAt ← dateField f now d kCREATEDAT
  let updatedAt ← dateField f now d kUPDATEDAT
  let email ← field Value.asString "" d kEMAIL
  let firstname ← field Value.asString "" d kFIRSTNAME
  let lastname ← field Value.asString "" d kLASTNAME
  let fullname := firstname ++ " " ++ lastname
  let avatar ← field Value.asString "" d kAVATAR
  let isOnline ← field Value.asBool false d kISONLINE
  let phoneNumber ← field Value.asString "" d kPHONE
  let countryCode ← field Value.asString "" d kCOUNTRYCODE
  let contacts ← field Value.asStrings [] d kCONTACT
  let blockedUsers ← field Value.asStrings [] d kBLOCKEDUSERID
  let loginMethod ← field Value.asString "" d kLOGINMETHOD
  let city ← field Value.asString "" d kCITY
  let country ← field Value.asString "" d kCOUNTRY
  some ⟨objectId, pushId, createdAt, updatedAt, email, firstname, lastname, fullname, avatar,
    isOnline, phoneNumber, countryCode, country, city, contacts, blockedUsers, loginMethod⟩

end FUser

def userDictionaryFrom (f : DateFormatter) (user : FUser) : Option Dictionary := do
  let pushId ← user.pushId
  some <| Dictionary.ofList
    [(kOBJECTID, .string user.objectId), (kCREATEDAT, .string (f.string user.createdAt)),
      (kUPDATEDAT, .string (f.string user.updatedAt)), (kEMAIL, .string user.email),
      (kLOGINMETHOD, .string user.loginMethod), (kPUSHID, .string pushId),
      (kFIRSTNAME, .string user.firstname), (kLASTNAME, .string user.lastname),
      (kFULLNAME, .string user.fullname), (kAVATAR, .string user.avatar),
      (kCONTACT, .strings user.contacts), (kBLOCKEDUSERID, .strings user.blockedUsers),
      (kISONLINE, .bool user.isOnline), (kPHONE, .string user.phoneNumber),
      (kCOUNTRYCODE, .string user.countryCode), (kCITY, .string user.city),
      (kCOUNTRY, .string user.country)]

/-- `withUser` has blocked the user `currentId`. -/
def checkBlockedStatus (currentId : Uid) (withUser : FUser) : Bool :=
  withUser.blockedUsers.contains currentId

/-- The dictionary is the profile of `u`. -/
def Owns (u : Uid) (d : Dictionary) : Prop := d kOBJECTID = some (.string u)

instance (u : Uid) (d : Dictionary) : Decidable (Owns u d) := inferInstanceAs (Decidable (_ = _))

theorem Owns.unique {u v : Uid} {d : Dictionary} (hu : Owns u d) (hv : Owns v d) : u = v := by
  unfold Owns at hu hv
  rw [hu] at hv
  simpa using hv

theorem FUser.owns_of_ofDictionary {f : DateFormatter} {now : Date} {d : Dictionary} {user : FUser}
    (h : FUser.ofDictionary f now d = some user) : Owns user.objectId d := by
  obtain ⟨v, hv, h⟩ := Option.bind_eq_some_iff.mp h
  obtain ⟨objectId, hid, h⟩ := Option.bind_eq_some_iff.mp h
  have hstring := Value.asString_eq_some.mp hid
  -- the other fourteen fields do not touch the id
  iterate 14 obtain ⟨_, -, h⟩ := Option.bind_eq_some_iff.mp h
  obtain rfl := Option.some.inj h
  rw [Owns, hv, hstring]

theorem owns_userDictionaryFrom {f : DateFormatter} {user : FUser} {d : Dictionary}
    (h : userDictionaryFrom f user = some d) : Owns user.objectId d := by
  obtain ⟨pushId, -, hd⟩ := Option.bind_eq_some_iff.mp h
  obtain rfl := Option.some.inj hd
  rfl

end LiChat
