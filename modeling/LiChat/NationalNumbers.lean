import LiChat.PhoneContacts

/-!
# National numbers

`removeCountryCode` is given the full number of a subscriber, the code of the country and the
national number, and takes the code out wherever it occurs.
-/

namespace LiChat
open Removal
namespace Phone

def codeDigits (phone : Phone) (countryCodeLetters : String) : Option (List Char) :=
  (CountryCode.codeDictionaryShort.lookup countryCodeLetters.toUpper).map fun code =>
    (phone.updatePhoneNumber code true).toList

/-- The national number is what is left of the full one, with or without its plus sign. -/
def LeavesNational (phone : Phone) (countryCodeLetters : String) (C N : List Char) : Prop :=
  phone.removeCountryCode countryCodeLetters (String.ofList (C ++ N)) = some (String.ofList N) ∧
    phone.removeCountryCode countryCodeLetters (String.ofList ('+' :: (C ++ N))) =
      some (String.ofList N)

/-- The screen knows the country of the carrier, and the national number has no occurrence of
the code. -/
def CodeOnlyInFront (phone : Phone) (C N : List Char) : Prop :=
  (CountryCode.getCountryCode phone.isoCountryCode).isSome ∧ (C = [] ∨ ¬ C <:+: N)

variable {phone : Phone} {countryCodeLetters : String} {C N : List Char}

theorem digits_codeDigits (hplus : phone.decimalDigits '+' = false)
    (hcode : phone.codeDigits countryCodeLetters = some C) : ∀ c ∈ C, phone.decimalDigits c := by
  obtain ⟨entry, -, rfl⟩ := Option.map_eq_some_iff.mp hcode
  intro c hc
  rw [toList_updatePhoneNumber hplus] at hc
  exact (List.mem_filter.mp hc).2

theorem removeCountryCode_none
    (hcarrier : ¬ (CountryCode.getCountryCode phone.isoCountryCode).isSome)
    (fullPhoneNumber : String) : phone.removeCountryCode countryCodeLetters fullPhoneNumber = none := by
  rw [removeCountryCode, Option.not_isSome_iff_eq_none.mp hcarrier]
  rfl

theorem removeCountryCode_full (hplus : phone.decimalDigits '+' = false)
    (hcarrier : (CountryCode.getCountryCode phone.isoCountryCode).isSome)
    (hcode : phone.codeDigits countryCodeLetters = some C) (hN : ∀ c ∈ N, phone.decimalDigits c) :
    phone.removeCountryCode countryCodeLetters (String.ofList (C ++ N)) =
        some (String.ofList (remove C N)) ∧
      phone.removeCountryCode countryCodeLetters (String.ofList ('+' :: (C ++ N))) =
        some (String.ofList (remove C N)) := by
  have hfront : '+' ∉ C := plus_notMem hplus (digits_codeDigits hplus hcode)
  obtain ⟨entry, hentry, rfl⟩ := Option.map_eq_some_iff.mp hcode
  have hfull : remove (phone.updatePhoneNumber entry true).toList
      ((phone.updatePhoneNumber entry true).toList ++ N) =
        remove (phone.updatePhoneNumber entry true).toList N := by
    by_cases hempty : (phone.updatePhoneNumber entry true).toList = []
    · rw [hempty, List.nil_append]
    · exact remove_append_self hempty N
  have hdigits : (remove (phone.updatePhoneNumber entry true).toList N).filter phone.decimalDigits =
      remove (phone.updatePhoneNumber entry true).toList N := by
    rw [List.filter_eq_self]
    exact fun c hc => hN c ((remove_sublist N).subset hc)
  constructor
  · rw [removeCountryCode_eq hcarrier hentry, String.toList_ofList, hfull, hdigits]
  · rw [removeCountryCode_eq hcarrier hentry, String.toList_ofList, remove_cons_of_notMem hfront,
      List.filter_cons_of_neg (by simp [hplus]), hfull, hdigits]

theorem leavesNational_iff (hplus : phone.decimalDigits '+' = false)
    (hcode : phone.codeDigits countryCodeLetters = some C) (hN : ∀ c ∈ N, phone.decimalDigits c) :
    phone.LeavesNational countryCodeLetters C N ↔ phone.CodeOnlyInFront C N := by
  by_cases hcarrier : (CountryCode.getCountryCode phone.isoCountryCode).isSome
  · obtain ⟨hbare, hsigned⟩ := removeCountryCode_full hplus hcarrier hcode hN
    rw [LeavesNational, hbare, hsigned, and_self, Option.some.injEq, String.ofList_inj,
      remove_eq_self_iff, CodeOnlyInFront, and_iff_right hcarrier]
  · refine iff_of_false (fun h => ?_) (fun h => hcarrier h.1)
    have hbare := h.1
    rw [removeCountryCode_none hcarrier] at hbare
    cases hbare

/-- For every country and all national numbers: exactly the national number is left when the
carrier's country is known and the code does not occur in it; of two different numbers of the
country for which this is so, different numbers are left. -/
theorem removeCountryCode_national_iff (phone : Phone) (countryCodeLetters : String)
    (C N : List Char) (hplus : phone.decimalDigits '+' = false)
    (hcode : phone.codeDigits countryCodeLetters = some C) (hN : ∀ c ∈ N, phone.decimalDigits c) :
    (phone.LeavesNational countryCodeLetters C N ↔ phone.CodeOnlyInFront C N) ∧
    ∀ N' : List Char, (∀ c ∈ N', phone.decimalDigits c) → N ≠ N' → phone.CodeOnlyInFront C N →
      phone.CodeOnlyInFront C N' →
      phone.removeCountryCode countryCodeLetters (String.ofList (C ++ N)) ≠
        phone.removeCountryCode countryCodeLetters (String.ofList (C ++ N')) := by
  refine ⟨leavesNational_iff hplus hcode hN, fun N' hN' hne h h' hsame => hne ?_⟩
  have hleft := (leavesNational_iff hplus hcode hN).mpr h
  have hleft' := (leavesNational_iff hplus hcode hN').mpr h'
  rw [hleft.1, hleft'.1, Option.some.injEq] at hsame
  exact String.ofList_injective hsame

theorem removeCountryCode_national_belgian :
    (phoneWith []).LeavesNational "be" "32".toList "470".toList :=
  (removeCountryCode_national_iff (phoneWith []) "be" "32".toList "470".toList (by decide +kernel)
    (by decide +kernel) (List.all_eq_true.mp (by decide +kernel))).1.mpr
    ⟨by decide +kernel, .inr (by decide +kernel)⟩

/-- Two subscribers in Belgium, 324 and 4, are left with the same number. -/
theorem removeCountryCode_fails_code_inside :
    CountryCode.codeDictionaryShort.lookup "BE" = some "+32" ∧
    (phoneWith []).codeDigits "be" = some "32".toList ∧
    (phoneWith []).removeCountryCode "be" "32324" = some "4" ∧
    (phoneWith []).removeCountryCode "be" "+32324" = some "4" ∧
    (phoneWith []).removeCountryCode "be" "324" = some "4" ∧
    ¬ (phoneWith []).LeavesNational "be" "32".toList "324".toList := by
  have hinside : (phoneWith []).removeCountryCode "be" "32324" = some "4" := by decide +kernel
  refine ⟨by decide +kernel, by decide +kernel, hinside, by decide +kernel, by decide +kernel, ?_⟩
  rintro ⟨hbare, -⟩
  have hnumber : String.ofList ("32".toList ++ "324".toList) = "32324" := by decide +kernel
  rw [hnumber, hinside] at hbare
  exact absurd hbare (by decide +kernel)

end Phone

end LiChat
