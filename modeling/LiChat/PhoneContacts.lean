import LiChat.CountryCode
import LiChat.General.Removal
import LiChat.GroupCreation

/-!
# Users with the number of a contact

The number of a user and the numbers of the contacts are cleaned in two ways before they are
compared: a user's number keeps its country code, and the code of a contact's country is
taken out of the contact's number wherever it occurs.
-/

namespace LiChat
open Removal

structure CNPhoneNumber where
  countryCode : Option String
  digits : Option String
  deriving DecidableEq, Repr

structure CNContact where
  phoneNumbers : List CNPhoneNumber
  deriving DecidableEq, Repr

/-- The address book, the country of the carrier and the character set of digits. -/
structure Phone where
  contacts : List CNContact
  isoCountryCode : Option String
  decimalDigits : Char → Bool

/-- `replacingOccurrences(of:with:)` with nothing in their place. -/
def removingOccurrences (s part : String) : String := String.ofList (remove part.toList s.toList)

namespace Phone

variable (phone : Phone)

def updatePhoneNumber (phoneNumber : String) (replacePlusSign : Bool) : String :=
  let phoneNumber := if replacePlusSign then removingOccurrences phoneNumber "+" else phoneNumber
  String.ofList (phoneNumber.toList.splitOnP fun c => !phone.decimalDigits c).flatten

/-- `none` is the trap on a country that has no entry. -/
def removeCountryCode (countryCodeLetters fullPhoneNumber : String) : Option String := do
  let _ ← CountryCode.getCountryCode phone.isoCountryCode
  let countryCodeToRemove ← CountryCode.codeDictionaryShort.lookup countryCodeLetters.toUpper
  let updatedCode := phone.updatePhoneNumber countryCodeToRemove true
  some (String.ofList ((removingOccurrences fullPhoneNumber updatedCode).toList.splitOnP
    fun c => !phone.decimalDigits c).flatten)

def contactNumber (number : CNPhoneNumber) : Option String := do
  let countryCode ← number.countryCode
  let phoneNumber ← number.digits
  phone.removeCountryCode countryCode phoneNumber

/-- A contact is found once for each of its numbers that agrees. -/
def searchForContactUsingPhoneNumber (phoneNumber : String) : Option (List CNContact) :=
  phone.contacts.foldlM (fun result contact =>
    contact.phoneNumbers.foldlM (fun result number => do
      let contactNumber ← phone.contactNumber number
      if contactNumber = phone.updatePhoneNumber phoneNumber true then some (result ++ [contact])
      else some result) result) []

def compareUsers (device : ContactsTableViewController.Device) (vc : ContactsTableViewController) :
    Option ContactsTableViewController := do
  let matchedUsers ← vc.users.foldlM (fun matchedUsers user =>
    if user.phoneNumber ≠ "" then do
      let contact ← phone.searchForContactUsingPhoneNumber user.phoneNumber
      if 0 < contact.length then some (matchedUsers ++ [user]) else some matchedUsers
    else some matchedUsers) vc.matchedUsers
  some (ContactsTableViewController.splitDataInToSection device { vc with matchedUsers := matchedUsers })

theorem foldlM_append_eq {α β : Type*} {step : List β → α → Option (List β)} (found : α → List β)
    {l : List α} (hstep : ∀ a ∈ l, ∀ result, step result a = some (result ++ found a))
    (result : List β) : l.foldlM step result = some (result ++ l.flatMap found) := by
  induction l generalizing result with
  | nil => simp
  | cons a l ih =>
    rw [List.foldlM_cons, hstep a List.mem_cons_self, Option.bind_eq_bind, Option.bind_some,
      ih fun b hb => hstep b (List.mem_cons_of_mem a hb)]
    simp

theorem foldlM_eq_none {α β : Type*} {step : β → α → Option β} {a : α}
    (hstep : ∀ result, step result a = none) {l : List α} (ha : a ∈ l) (result : β) :
    l.foldlM step result = none := by
  induction l generalizing result with
  | nil => cases ha
  | cons b l ih =>
    rw [List.foldlM_cons, Option.bind_eq_bind]
    rcases List.mem_cons.mp ha with rfl | ha
    · rw [hstep, Option.bind_none]
    · cases step result b with
      | none => rfl
      | some next => exact ih ha next

def numbers : List CNPhoneNumber := phone.contacts.flatMap CNContact.phoneNumbers

def codeOf (number : CNPhoneNumber) : Option (List Char) := do
  let countryCode ← number.countryCode
  let code ← CountryCode.codeDictionaryShort.lookup countryCode.toUpper
  some (phone.updatePhoneNumber code true).toList

/-- Nothing that a number needs is missing: the entry of the carrier's country, the entry of
its own country and its digits. -/
def Readable : Prop :=
  ∀ number ∈ phone.numbers, (CountryCode.getCountryCode phone.isoCountryCode).isSome ∧
    (phone.codeOf number).isSome ∧ number.digits.isSome

def isContact (phoneNumber : String) : Bool :=
  phone.numbers.any fun number =>
    phone.contactNumber number = some (phone.updatePhoneNumber phoneNumber true)

variable {phone}

theorem removeCountryCode_eq {countryCodeLetters entry : String}
    (hcarrier : (CountryCode.getCountryCode phone.isoCountryCode).isSome)
    (hentry : CountryCode.codeDictionaryShort.lookup countryCodeLetters.toUpper = some entry)
    (fullPhoneNumber : String) :
    phone.removeCountryCode countryCodeLetters fullPhoneNumber =
      some (String.ofList ((remove (phone.updatePhoneNumber entry true).toList
        fullPhoneNumber.toList).filter phone.decimalDigits)) := by
  obtain ⟨carrier, hcarrier⟩ := Option.isSome_iff_exists.mp hcarrier
  simp only [removeCountryCode, hcarrier, hentry, Option.bind_eq_bind, Option.bind_some,
    flatten_splitOnP, removingOccurrences, String.toList_ofList, Bool.not_not]

theorem contactNumber_eq {number : CNPhoneNumber} {code : List Char} {digits : String}
    (hcarrier : (CountryCode.getCountryCode phone.isoCountryCode).isSome)
    (hcode : phone.codeOf number = some code) (hdigits : number.digits = some digits) :
    phone.contactNumber number =
      some (String.ofList ((remove code digits.toList).filter phone.decimalDigits)) := by
  unfold codeOf at hcode
  simp only [Option.bind_eq_bind, Option.bind_eq_some_iff, Option.some.injEq] at hcode
  obtain ⟨letters, hletters, entry, hentry, rfl⟩ := hcode
  rw [contactNumber, hletters, hdigits]
  exact removeCountryCode_eq hcarrier hentry digits

theorem Readable.contactNumber (h : phone.Readable) {number : CNPhoneNumber}
    (hmem : number ∈ phone.numbers) :
    ∃ code digits, phone.codeOf number = some code ∧ number.digits = some digits ∧
      phone.contactNumber number =
        some (String.ofList ((remove code digits.toList).filter phone.decimalDigits)) := by
  obtain ⟨hcarrier, hcode, hdigits⟩ := h number hmem
  obtain ⟨code, hcode⟩ := Option.isSome_iff_exists.mp hcode
  obtain ⟨digits, hdigits⟩ := Option.isSome_iff_exists.mp hdigits
  exact ⟨code, digits, hcode, hdigits, contactNumber_eq hcarrier hcode hdigits⟩

theorem readable_iff :
    phone.Readable ↔ ∀ number ∈ phone.numbers, (phone.contactNumber number).isSome := by
  constructor
  · intro h number hmem
    obtain ⟨code, digits, -, -, hcleaned⟩ := h.contactNumber hmem
    rw [hcleaned]
    rfl
  · intro h number hmem
    obtain ⟨cleaned, hcleaned⟩ := Option.isSome_iff_exists.mp (h number hmem)
    simp only [contactNumber, removeCountryCode, Option.bind_eq_bind,
      Option.bind_eq_some_iff] at hcleaned
    obtain ⟨letters, hletters, digits, hdigits, carrier, hcarrier, entry, hentry, -⟩ := hcleaned
    have hcarrier := Option.isSome_iff_exists.mpr ⟨carrier, hcarrier⟩
    refine ⟨hcarrier, ?_, Option.isSome_iff_exists.mpr ⟨digits, hdigits⟩⟩
    simp [codeOf, hletters, hentry]

theorem searchForContact_eq (hreadable : phone.Readable) (phoneNumber : String) :
    phone.searchForContactUsingPhoneNumber phoneNumber =
      some (phone.contacts.flatMap fun contact => contact.phoneNumbers.flatMap fun number =>
        if phone.contactNumber number = some (phone.updatePhoneNumber phoneNumber true)
        then [contact] else []) := by
  unfold searchForContactUsingPhoneNumber
  rw [foldlM_append_eq (fun contact => contact.phoneNumbers.flatMap fun number =>
    if phone.contactNumber number = some (phone.updatePhoneNumber phoneNumber true)
    then [contact] else []), List.nil_append]
  intro contact hcontact result
  apply foldlM_append_eq
  intro number hnumber result
  have hmem : number ∈ phone.numbers := List.mem_flatMap.mpr ⟨contact, hcontact, hnumber⟩
  obtain ⟨cleaned, hcleaned⟩ := Option.isSome_iff_exists.mp (readable_iff.mp hreadable number hmem)
  rw [hcleaned, Option.bind_eq_bind, Option.bind_some]
  by_cases heq : cleaned = phone.updatePhoneNumber phoneNumber true
  · simp [heq]
  · simp [heq]

theorem searchForContact_none (hreadable : ¬ phone.Readable) (phoneNumber : String) :
    phone.searchForContactUsingPhoneNumber phoneNumber = none := by
  rw [readable_iff] at hreadable
  push Not at hreadable
  obtain ⟨number, hmem, hnone⟩ := hreadable
  obtain ⟨contact, hcontact, hnumber⟩ := List.mem_flatMap.mp hmem
  refine foldlM_eq_none (fun result => ?_) hcontact []
  refine foldlM_eq_none (fun result => ?_) hnumber result
  rw [Option.not_isSome_iff_eq_none.mp hnone, Option.bind_eq_bind, Option.bind_none]

theorem length_searchForContact (hreadable : phone.Readable) (phoneNumber : String) :
    ∃ contact, phone.searchForContactUsingPhoneNumber phoneNumber = some contact ∧
      (0 < contact.length ↔ phone.isContact phoneNumber) := by
  refine ⟨_, searchForContact_eq hreadable phoneNumber, ?_⟩
  rw [List.length_pos_iff_exists_mem, isContact, List.any_eq_true]
  constructor
  · rintro ⟨contact, hcontact⟩
    obtain ⟨holder, hholder, hfound⟩ := List.mem_flatMap.mp hcontact
    obtain ⟨number, hnumber, hone⟩ := List.mem_flatMap.mp hfound
    refine ⟨number, List.mem_flatMap.mpr ⟨holder, hholder, hnumber⟩, ?_⟩
    by_contra hne
    rw [if_neg (by simpa using hne)] at hone
    cases hone
  · rintro ⟨number, hmem, heq⟩
    obtain ⟨contact, hcontact, hnumber⟩ := List.mem_flatMap.mp hmem
    refine ⟨contact, List.mem_flatMap.mpr ⟨contact, hcontact, ?_⟩⟩
    refine List.mem_flatMap.mpr ⟨number, hnumber, ?_⟩
    rw [if_pos (by simpa using heq)]
    exact List.mem_singleton_self contact

/-- Where every number can be read, the screen compares as on a device that knows which
numbers are those of contacts. -/
theorem compareUsers_eq (hreadable : phone.Readable) (device : ContactsTableViewController.Device)
    (vc : ContactsTableViewController) :
    phone.compareUsers device vc = some (vc.compareUsers { device with isContact := phone.isContact }) := by
  have hfilter : (vc.users.flatMap fun user =>
      if user.phoneNumber ≠ "" ∧ phone.isContact user.phoneNumber then [user] else []) =
      vc.users.filter fun user => user.phoneNumber ≠ "" ∧ phone.isContact user.phoneNumber := by
    induction vc.users with
    | nil => rfl
    | cons user users ih =>
      rw [List.flatMap_cons, ih, List.filter_cons]
      by_cases h : user.phoneNumber ≠ "" ∧ phone.isContact user.phoneNumber
      · simp [h]
      · simp [h]
  unfold Phone.compareUsers
  rw [foldlM_append_eq (fun user =>
    if user.phoneNumber ≠ "" ∧ phone.isContact user.phoneNumber then [user] else []), hfilter]
  · rfl
  intro user _ matchedUsers
  obtain ⟨contact, hcontact, hlength⟩ := length_searchForContact hreadable user.phoneNumber
  by_cases hnumber : user.phoneNumber = ""
  · simp [hnumber]
  · by_cases hfound : 0 < contact.length
    · simp [hnumber, hcontact, hfound, hlength.mp hfound]
    · have hnot : phone.isContact user.phoneNumber = false := by
        simpa using fun h => hfound (hlength.mpr h)
      simp [hnumber, hcontact, hfound, hnot]

theorem compareUsers_none (hreadable : ¬ phone.Readable) (device : ContactsTableViewController.Device)
    {vc : ContactsTableViewController} {user : FUser} (huser : user ∈ vc.users)
    (hnumber : user.phoneNumber ≠ "") : phone.compareUsers device vc = none := by
  unfold Phone.compareUsers
  rw [foldlM_eq_none (fun matchedUsers => ?_) huser vc.matchedUsers, Option.bind_eq_bind,
    Option.bind_none]
  rw [if_pos hnumber, searchForContact_none hreadable, Option.bind_eq_bind, Option.bind_none]

end Phone

/-- The number has these digits, with or without a plus sign before them. -/
def CNPhoneNumber.HasDigits (number : CNPhoneNumber) (s : List Char) : Prop :=
  number.digits = some (String.ofList s) ∨ number.digits = some (String.ofList ('+' :: s))

instance (number : CNPhoneNumber) (s : List Char) : Decidable (number.HasDigits s) :=
  inferInstanceAs (Decidable (_ ∨ _))

namespace Phone

section
variable (phone : Phone)

/-- The number is complete: the code of its country and a national number. -/
def FullNumber (number : CNPhoneNumber) (s : List Char) : Prop :=
  number.HasDigits s ∧ ∃ code national, phone.codeOf number = some code ∧
    (∀ c ∈ national, phone.decimalDigits c) ∧ s = code ++ national

/-- The code of the number's country does not occur in the digits. -/
def CodeOutside (number : CNPhoneNumber) (s : List Char) : Prop :=
  ∃ code, phone.codeOf number = some code ∧ (code = [] ∨ ¬ code <:+: s)

/-- Another number, whose digits become the given ones when the code of its country is taken
out wherever it occurs. -/
def TakenFor (number : CNPhoneNumber) (s : List Char) : Prop :=
  ¬ number.HasDigits s ∧ ∃ code digits, phone.codeOf number = some code ∧
    number.digits = some digits ∧ (remove code digits.toList).filter phone.decimalDigits = s

/-- The user is appended once for each time it is listed, which is once where it is loaded
once. -/
def Adds (device : ContactsTableViewController.Device) (vc : ContactsTableViewController) (user : FUser) :
    Prop :=
  ∃ vc', phone.compareUsers device vc = some vc' ∧
    vc'.matchedUsers.count user = vc.matchedUsers.count user + vc.users.count user

def Skips (device : ContactsTableViewController.Device) (vc : ContactsTableViewController) (user : FUser) :
    Prop :=
  ∃ vc', phone.compareUsers device vc = some vc' ∧
    vc'.matchedUsers.count user = vc.matchedUsers.count user

end

variable {phone : Phone} {s : List Char}

theorem toList_updatePhoneNumber (hplus : phone.decimalDigits '+' = false) (phoneNumber : String) :
    (phone.updatePhoneNumber phoneNumber true).toList =
      phoneNumber.toList.filter phone.decimalDigits := by
  have hone : "+".toList = ['+'] := rfl
  rw [updatePhoneNumber, if_pos rfl, String.toList_ofList, flatten_splitOnP, removingOccurrences,
    String.toList_ofList, hone, remove_singleton, List.filter_filter]
  apply List.filter_congr
  intro c _
  by_cases hc : c = '+'
  · simp [hc, hplus]
  · simp [hc]

theorem digits_codeOf (hplus : phone.decimalDigits '+' = false) {number : CNPhoneNumber}
    {code : List Char} (h : phone.codeOf number = some code) : ∀ c ∈ code, phone.decimalDigits c := by
  simp only [codeOf, Option.bind_eq_bind, Option.bind_eq_some_iff, Option.some.injEq] at h
  obtain ⟨letters, -, entry, -, rfl⟩ := h
  intro c hc
  rw [toList_updatePhoneNumber hplus] at hc
  exact (List.mem_filter.mp hc).2

theorem plus_notMem (hplus : phone.decimalDigits '+' = false)
    (hs : ∀ c ∈ s, phone.decimalDigits c) : '+' ∉ s := by
  intro hmem
  have hdigit := hs _ hmem
  rw [hplus] at hdigit
  cases hdigit

theorem contactNumber_of_hasDigits (hplus : phone.decimalDigits '+' = false)
    (hs : ∀ c ∈ s, phone.decimalDigits c) (hreadable : phone.Readable) {number : CNPhoneNumber}
    (hmem : number ∈ phone.numbers) (h : number.HasDigits s) :
    ∃ code, phone.codeOf number = some code ∧
      phone.contactNumber number = some (String.ofList (remove code s)) := by
  obtain ⟨code, digits, hcode, hdigits, hcleaned⟩ := hreadable.contactNumber hmem
  have hfilter : (remove code s).filter phone.decimalDigits = remove code s := by
    rw [List.filter_eq_self]
    exact fun c hc => hs c ((remove_sublist s).subset hc)
  have hfront : '+' ∉ code := plus_notMem hplus (digits_codeOf hplus hcode)
  refine ⟨code, hcode, ?_⟩
  rw [hcleaned]
  rcases h with h | h
  · obtain rfl : digits = String.ofList s := Option.some.inj (hdigits.symm.trans h)
    rw [String.toList_ofList, hfilter]
  · obtain rfl : digits = String.ofList ('+' :: s) := Option.some.inj (hdigits.symm.trans h)
    rw [String.toList_ofList, remove_cons_of_notMem hfront,
      List.filter_cons_of_neg (by simp [hplus]), hfilter]

theorem HasDigits_unique (hplus : phone.decimalDigits '+' = false) {number : CNPhoneNumber}
    {other : List Char} (hs : ∀ c ∈ s, phone.decimalDigits c)
    (hother : ∀ c ∈ other, phone.decimalDigits c) (h : number.HasDigits s)
    (h' : number.HasDigits other) : s = other := by
  have hinj : ∀ {l l' : List Char}, number.digits = some (String.ofList l) →
      number.digits = some (String.ofList l') → l = l' := by
    intro l l' hl hl'
    exact String.ofList_injective (Option.some.inj (hl.symm.trans hl'))
  rcases h with h | h
  · rcases h' with h' | h'
    · exact hinj h h'
    · exact absurd (hinj h h' ▸ List.mem_cons_self) (plus_notMem hplus hs)
  · rcases h' with h' | h'
    · exact absurd (hinj h' h ▸ List.mem_cons_self) (plus_notMem hplus hother)
    · exact (List.cons.inj (hinj h h')).2

/-- What the search finds: a number with the user's digits that its own code leaves alone, or
another number that is taken for it. -/
theorem isContact_iff (hplus : phone.decimalDigits '+' = false)
    (hs : ∀ c ∈ s, phone.decimalDigits c) (hreadable : phone.Readable) :
    phone.isContact (String.ofList ('+' :: s)) ↔
      (∃ number ∈ phone.numbers, number.HasDigits s ∧ phone.CodeOutside number s) ∨
        ∃ number ∈ phone.numbers, phone.TakenFor number s := by
  have hclean : phone.updatePhoneNumber (String.ofList ('+' :: s)) true = String.ofList s := by
    rw [← String.ofList_toList (s := phone.updatePhoneNumber _ true), toList_updatePhoneNumber hplus,
      String.toList_ofList, List.filter_cons_of_neg (by simp [hplus]), List.filter_eq_self.mpr hs]
  have hsame : ∀ number ∈ phone.numbers, number.HasDigits s →
      (phone.contactNumber number = some (String.ofList s) ↔ phone.CodeOutside number s) := by
    intro number hmem hdigits
    obtain ⟨code, hcode, hcleaned⟩ := contactNumber_of_hasDigits hplus hs hreadable hmem hdigits
    rw [hcleaned, Option.some.injEq, String.ofList_inj, remove_eq_self_iff]
    constructor
    · exact fun h => ⟨code, hcode, h⟩
    · rintro ⟨code', hcode', h⟩
      obtain rfl : code = code' := Option.some.inj (hcode.symm.trans hcode')
      exact h
  rw [isContact, List.any_eq_true, hclean]
  constructor
  · rintro ⟨number, hmem, heq⟩
    have heq : phone.contactNumber number = some (String.ofList s) := by simpa using heq
    by_cases hdigits : number.HasDigits s
    · exact .inl ⟨number, hmem, hdigits, (hsame number hmem hdigits).mp heq⟩
    · obtain ⟨code, digits, hcode, hother, hcleaned⟩ := hreadable.contactNumber hmem
      rw [hcleaned, Option.some.injEq, String.ofList_inj] at heq
      exact .inr ⟨number, hmem, hdigits, code, digits, hcode, hother, heq⟩
  · rintro (⟨number, hmem, hdigits, hcode⟩ | ⟨number, hmem, -, code, digits, hcode, hother, rfl⟩)
    · exact ⟨number, hmem, by simpa using (hsame number hmem hdigits).mpr hcode⟩
    · refine ⟨number, hmem, ?_⟩
      rw [contactNumber_eq (hreadable number hmem).1 hcode hother]
      exact decide_eq_true rfl

theorem count_matchedUsers (device : ContactsTableViewController.Device)
    (vc : ContactsTableViewController) {user : FUser} (hnumber : user.phoneNumber ≠ "") :
    (vc.compareUsers device).matchedUsers.count user = vc.matchedUsers.count user +
      if device.isContact user.phoneNumber then vc.users.count user else 0 := by
  show (vc.matchedUsers ++ vc.users.filter fun user =>
    user.phoneNumber ≠ "" ∧ device.isContact user.phoneNumber).count user = _
  rw [List.count_append]
  congr 1
  split_ifs with hcontact
  · exact List.count_filter (by simp [hnumber, hcontact])
  · rw [List.count_eq_zero]
    intro hmem
    have hkept := (List.mem_filter.mp hmem).2
    simp [hcontact] at hkept

variable {device : ContactsTableViewController.Device} {vc : ContactsTableViewController} {user : FUser}

theorem exists_compareUsers_iff (huser : user ∈ vc.users) (hnumber : user.phoneNumber ≠ "")
    (P : ℕ → Prop) :
    (∃ vc', phone.compareUsers device vc = some vc' ∧ P (vc'.matchedUsers.count user)) ↔
      phone.Readable ∧ P (vc.matchedUsers.count user +
        if phone.isContact user.phoneNumber then vc.users.count user else 0) := by
  by_cases hreadable : phone.Readable
  · simp only [compareUsers_eq hreadable, Option.some.injEq, exists_eq_left',
      count_matchedUsers _ _ hnumber, hreadable, true_and]
  · simp [compareUsers_none hreadable device huser hnumber, hreadable]

theorem adds_iff (huser : user ∈ vc.users) (hnumber : user.phoneNumber ≠ "") :
    phone.Adds device vc user ↔ phone.Readable ∧ phone.isContact user.phoneNumber := by
  have hpos : vc.users.count user ≠ 0 := (List.count_pos_iff.mpr huser).ne'
  refine (exists_compareUsers_iff huser hnumber
    (· = vc.matchedUsers.count user + vc.users.count user)).trans (and_congr_right fun _ => ?_)
  rw [Nat.add_left_cancel_iff]
  by_cases hcontact : phone.isContact user.phoneNumber
  · simp [hcontact]
  · simpa [hcontact] using hpos.symm

theorem skips_iff (huser : user ∈ vc.users) (hnumber : user.phoneNumber ≠ "") :
    phone.Skips device vc user ↔ phone.Readable ∧ ¬ phone.isContact user.phoneNumber := by
  have hpos : vc.users.count user ≠ 0 := (List.count_pos_iff.mpr huser).ne'
  refine (exists_compareUsers_iff huser hnumber (· = vc.matchedUsers.count user)).trans
    (and_congr_right fun _ => ?_)
  rw [Nat.add_eq_left]
  by_cases hcontact : phone.isContact user.phoneNumber
  · simpa [hcontact] using hpos
  · simp [hcontact]

/-- A number of the user's own country is never left alone. -/
theorem not_codeOutside {C N : List Char} (hC : C ≠ []) {number : CNPhoneNumber}
    (hcode : phone.codeOf number = some C) : ¬ phone.CodeOutside number (C ++ N) := by
  rintro ⟨code, hcode', h⟩
  obtain rfl : C = code := Option.some.inj (hcode.symm.trans hcode')
  exact h.elim hC fun hnot => hnot (List.prefix_append C N).isInfix

variable (phone device vc user) in
/-- A user with the digits `s` is found through a number with these digits, and only so. -/
def FindsSubscriber (s : List Char) : Prop :=
  ((∃ number ∈ phone.numbers, number.HasDigits s) → phone.Adds device vc user) ∧
    ((∀ number ∈ phone.numbers, ∃ other, phone.FullNumber number other ∧ other ≠ s) →
      phone.Skips device vc user)

/-- For all digits `C` of a country and all national numbers `N`: the screen finds exactly the
subscriber when numbers can be read, a number with the user's digits is left alone by the code
of its own country, if there is one, and no other number is taken for it. -/
theorem finds_subscriber_iff (phone : Phone) (device : ContactsTableViewController.Device)
    (vc : ContactsTableViewController) (user : FUser) (C N : List Char)
    (hplus : phone.decimalDigits '+' = false) (hC : ∀ c ∈ C, phone.decimalDigits c)
    (hN : ∀ c ∈ N, phone.decimalDigits c) (huser : user ∈ vc.users)
    (hphone : user.phoneNumber = String.ofList ('+' :: (C ++ N))) :
    phone.FindsSubscriber device vc user (C ++ N) ↔
      ((∃ number ∈ phone.numbers, number.HasDigits (C ++ N)) → phone.Readable ∧
        ((∃ number ∈ phone.numbers, number.HasDigits (C ++ N) ∧ phone.CodeOutside number (C ++ N)) ∨
          ∃ number ∈ phone.numbers, phone.TakenFor number (C ++ N))) ∧
      ((∀ number ∈ phone.numbers, ∃ other, phone.FullNumber number other ∧ other ≠ C ++ N) →
        phone.Readable ∧ ∀ number ∈ phone.numbers, ¬ phone.TakenFor number (C ++ N)) := by
  have hs : ∀ c ∈ C ++ N, phone.decimalDigits c := by
    intro c hc
    exact (List.mem_append.mp hc).elim (hC c) (hN c)
  have hnumber : user.phoneNumber ≠ "" := by
    rw [hphone]
    intro h
    have hlist := congrArg String.toList h
    rw [String.toList_ofList] at hlist
    cases hlist
  unfold FindsSubscriber
  rw [adds_iff huser hnumber, skips_iff huser hnumber, hphone]
  refine and_congr (imp_congr_right fun _ => and_congr_right fun hreadable => ?_)
    (imp_congr_right fun hfull => and_congr_right fun hreadable => ?_)
  · exact isContact_iff hplus hs hreadable
  · -- a complete number determines its digits
    have hother : ∀ number ∈ phone.numbers, ¬ number.HasDigits (C ++ N) := by
      intro number hmem hdigits
      obtain ⟨other, ⟨hother, code, national, hcode, hnational, rfl⟩, hne⟩ := hfull number hmem
      refine hne (HasDigits_unique hplus ?_ hs hother hdigits)
      intro c hc
      exact (List.mem_append.mp hc).elim (digits_codeOf hplus hcode c) (hnational c)
    rw [isContact_iff hplus hs hreadable]
    constructor
    · exact fun h number hmem htaken => h (.inr ⟨number, hmem, htaken⟩)
    · rintro h (⟨number, hmem, hdigits, -⟩ | ⟨number, hmem, htaken⟩)
      · exact hother number hmem hdigits
      · exact h number hmem htaken

/-- An address book without a carrier; the numbers are given with their countries. -/
def phoneWith (numbers : List (String × String)) : Phone :=
  ⟨numbers.map fun number => ⟨[⟨some number.1, some number.2⟩]⟩, none, Char.isDigit⟩

/-- What the sections use of a device; contacts are not asked of it. -/
def onlySplits : ContactsTableViewController.Device := ⟨fun _ => false, fun s => s, fun _ _ => true⟩

def belgian : FUser := FUser.make "bea" none 0 0 "" "Bea" "" "" "" "+32470" "" ""

def listing (user : FUser) : ContactsTableViewController :=
  { ContactsTableViewController.initial with users := [user] }

/-- The number is listed as one of Bulgaria, whose code is not in it. -/
theorem finds_subscriber_under_bulgaria :
    (phoneWith [("bg", "+32470")]).FindsSubscriber onlySplits
      (listing belgian) belgian ("32".toList ++ "470".toList) := by
  have hdigits : ∀ number ∈ (phoneWith [("bg", "+32470")]).numbers,
      number.HasDigits ("32".toList ++ "470".toList) := by decide +kernel
  have hreadable : (phoneWith [("bg", "+32470")]).Readable := by
    unfold Readable
    decide +kernel
  refine (finds_subscriber_iff (phoneWith [("bg", "+32470")]) onlySplits
    (listing belgian) belgian "32".toList "470".toList (by decide +kernel)
    (List.all_eq_true.mp (by decide +kernel)) (List.all_eq_true.mp (by decide +kernel))
    (by decide +kernel) (by decide +kernel)).mpr
    ⟨fun _ => ⟨hreadable, .inl ?_⟩, fun _ => ⟨hreadable, ?_⟩⟩
  · exact ⟨⟨some "bg", some "+32470"⟩, by decide +kernel, hdigits _ (by decide +kernel), "359".toList,
      by decide +kernel, .inr (by decide +kernel)⟩
  · exact fun number hmem htaken => htaken.1 (hdigits number hmem)

/-- In a Belgian's own number the code of Belgium is taken out, and she is missed.  A Bulgarian
number that contains hers after the code of Bulgaria is taken for it. -/
theorem subscriber_missed_or_mistaken :
    CountryCode.codeDictionaryShort.lookup "BE" = some "+32" ∧
    ((phoneWith [("be", "+32470")]).compareUsers onlySplits
      (listing belgian)).map (·.matchedUsers) = some [] ∧
    ¬ (phoneWith [("be", "+32470")]).FindsSubscriber onlySplits
      (listing belgian) belgian ("32".toList ++ "470".toList) ∧
    ((phoneWith [("be", "+32999"), ("bg", "+35932470")]).compareUsers
      onlySplits (listing belgian)).map (·.matchedUsers) = some [belgian] ∧
    ¬ (phoneWith [("be", "+32999"), ("bg", "+35932470")]).FindsSubscriber
      onlySplits (listing belgian) belgian
      ("32".toList ++ "470".toList) := by
  have hmissed : ((phoneWith [("be", "+32470")]).compareUsers onlySplits
      (listing belgian)).map (·.matchedUsers) = some [] := by decide +kernel
  have hmistaken : ((phoneWith [("be", "+32999"), ("bg", "+35932470")]).compareUsers
      onlySplits (listing belgian)).map (·.matchedUsers) =
      some [belgian] := by decide +kernel
  refine ⟨by decide +kernel, hmissed, fun h => ?_, hmistaken, fun h => ?_⟩
  · obtain ⟨vc', hvc', hcount⟩ := h.1 (by decide +kernel)
    rw [hvc', Option.map_some, Option.some.injEq] at hmissed
    rw [hmissed] at hcount
    exact absurd hcount (by decide +kernel)
  · obtain ⟨vc', hvc', hcount⟩ := h.2 (by
      intro number hmem
      have hnumbers : (phoneWith [("be", "+32999"), ("bg", "+35932470")]).numbers =
          [⟨some "be", some "+32999"⟩, ⟨some "bg", some "+35932470"⟩] := by decide +kernel
      rw [hnumbers] at hmem
      rcases List.mem_pair.mp hmem with rfl | rfl
      · exact ⟨"32999".toList, ⟨by decide +kernel, "32".toList, "999".toList, by decide +kernel,
          List.all_eq_true.mp (by decide +kernel), by decide +kernel⟩, by decide +kernel⟩
      · exact ⟨"35932470".toList, ⟨by decide +kernel, "359".toList, "32470".toList, by decide +kernel,
          List.all_eq_true.mp (by decide +kernel), by decide +kernel⟩, by decide +kernel⟩)
    rw [hvc', Option.map_some, Option.some.injEq] at hmistaken
    rw [hmistaken] at hcount
    exact absurd hcount (by decide +kernel)

end Phone

end LiChat
