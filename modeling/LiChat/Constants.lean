import Mathlib.Init

/-!
# Dictionary keys and constants of the app
-/

namespace LiChat

abbrev kOBJECTID : String := "objectId"
abbrev kCREATEDAT : String := "createdAt"
abbrev kUPDATEDAT : String := "updatedAt"
abbrev kEMAIL : String := "email"
abbrev kPHONE : String := "phone"
abbrev kCOUNTRYCODE : String := "countryCode"
abbrev kLOGINMETHOD : String := "loginMethod"
abbrev kPUSHID : String := "pushId"
abbrev kFIRSTNAME : String := "firstname"
abbrev kLASTNAME : String := "lastname"
abbrev kFULLNAME : String := "fullname"
abbrev kAVATAR : String := "avatar"
abbrev kISONLINE : String := "isOnline"
abbrev kCITY : String := "city"
abbrev kCOUNTRY : String := "country"
abbrev kBLOCKEDUSERID : String := "blockedUserId"
abbrev kCONTACT : String := "contact"

abbrev kNUMBEROFMESSAGES : Int := 10
abbrev kPICTURE : String := "picture"
abbrev kTEXT : String := "text"
abbrev kVIDEO : String := "video"
abbrev kAUDIO : String := "audio"
abbrev kLOCATION : String := "location"
abbrev kDELIVERED : String := "delivered"
abbrev kREAD : String := "read"

end LiChat
