import LiChat.General.Streaming
import LiChat.MessageFormat
import Mathlib.Data.List.GetD

/-!
# The encrypted data of a message

RNCryptor writes a header with the salts and the initialisation vector, the encrypted data and
a message authentication code, and takes all of it in pieces.  The functions of CommonCrypto
are parameters.
-/

namespace LiChat.RNCryptor
open Streaming

inductive Error where
  | hmacMismatch
  | unknownHeader
  | messageTooShort
  | memoryFailure
  | invalidCredentialType
  deriving DecidableEq, Repr

namespace FormatV3

def keySize : ℕ := 32
def saltSize : ℕ := 8
def ivSize : ℕ := 16
def hmacSize : ℕ := 32
def keyHeaderSize : ℕ := 1 + 1 + 16
def passwordHeaderSize : ℕ := 1 + 1 + 8 + 8 + 16
def formatVersion : UInt8 := 3

end FormatV3

open FormatV3

abbrev Key := { key : NSData // key.length = keySize }

inductive CryptorOperation where
  | encrypt
  | decrypt

/-- What a cryptor has returned for the data that it has been given depends on these data and
on how it has been created; with more data it has returned more.  Decryption undoes
encryption under the same key and vector. -/
structure CommonCrypto where
  keyDerivationPBKDF : (password salt : NSData) → NSData
  hmac : (key data : NSData) → NSData
  cryptorUpdate : CryptorOperation → (key iv data : NSData) → NSData
  cryptorFinal : CryptorOperation → (key iv data : NSData) → NSData
  length_key : ∀ password salt, (keyDerivationPBKDF password salt).length = keySize
  length_hmac : ∀ key data, (hmac key data).length = hmacSize
  update_nil : ∀ operation key iv, cryptorUpdate operation key iv [] = []
  update_prefix : ∀ operation key iv data more,
    cryptorUpdate operation key iv data <+: cryptorUpdate operation key iv (data ++ more)
  decrypt_encrypt : ∀ key iv data, key.length = keySize → iv.length = ivSize →
    let encrypted := cryptorUpdate .encrypt key iv data ++ cryptorFinal .encrypt key iv data
    cryptorUpdate .decrypt key iv encrypted ++ cryptorFinal .decrypt key iv encrypted = data

def CommonCrypto.crypt (cc : CommonCrypto) (operation : CryptorOperation) (key iv data : NSData) :
    NSData :=
  cc.cryptorUpdate operation key iv data ++ cc.cryptorFinal operation key iv data

theorem CommonCrypto.crypt_crypt (cc : CommonCrypto) {key iv : NSData} (hkey : key.length = keySize)
    (hiv : iv.length = ivSize) (data : NSData) :
    cc.crypt .decrypt key iv (cc.crypt .encrypt key iv data) = data :=
  cc.decrypt_encrypt key iv data hkey hiv

variable (cc : CommonCrypto)

/-- `makeKey(forPassword:withSalt:)` -/
def makeKey (password : String) (salt : NSData) : NSData :=
  cc.keyDerivationPBKDF password.toUTF8.data.toList salt

structure Engine where
  operation : CryptorOperation
  key : NSData
  iv : NSData
  data : NSData := []

namespace Engine

def returned (e : Engine) : NSData := cc.cryptorUpdate e.operation e.key e.iv e.data

def update (e : Engine) (data : NSData) : NSData × Engine :=
  let e' := { e with data := e.data ++ data }
  ((e'.returned cc).drop (e.returned cc).length, e')

def finalData (e : Engine) : NSData := cc.cryptorFinal e.operation e.key e.iv e.data

@[simp]
theorem update_nil_fst (e : Engine) : (e.update cc []).1 = [] := by
  simp [update, returned]

@[simp]
theorem update_nil_snd (e : Engine) : (e.update cc []).2 = e := by
  simp [update]

theorem returned_update (e : Engine) (data : NSData) :
    e.returned cc ++ (e.update cc data).1 = (e.update cc data).2.returned cc := by
  obtain ⟨more, hmore⟩ := cc.update_prefix e.operation e.key e.iv e.data data
  show e.returned cc ++ (cc.cryptorUpdate e.operation e.key e.iv (e.data ++ data)).drop
    (e.returned cc).length = cc.cryptorUpdate e.operation e.key e.iv (e.data ++ data)
  rw [← hmore]
  exact congrArg _ List.drop_left

theorem update_append (e : Engine) (a b : NSData) :
    e.update cc (a ++ b) =
      ((e.update cc a).1 ++ ((e.update cc a).2.update cc b).1, ((e.update cc a).2.update cc b).2) := by
  have hstate : (e.update cc (a ++ b)).2 = ((e.update cc a).2.update cc b).2 := by
    simp [update, List.append_assoc]
  refine Prod.ext ((List.append_right_inj (e.returned cc)).mp ?_) hstate
  rw [returned_update, hstate, ← returned_update, ← returned_update, List.append_assoc]

end Engine

structure HMACV3 where
  key : NSData
  data : NSData := []

namespace HMACV3

def update (h : HMACV3) (data : NSData) : HMACV3 := { h with data := h.data ++ data }

def finalData (h : HMACV3) : NSData := cc.hmac h.key h.data

end HMACV3

/-- It holds `capacity` bytes or less. -/
@[ext] structure OverflowingBuffer (capacity : ℕ) where
  buffer : NSData
  le : buffer.length ≤ capacity

namespace OverflowingBuffer
variable {capacity : ℕ} (b : OverflowingBuffer capacity)

def init : OverflowingBuffer capacity := ⟨[], Nat.zero_le _⟩

def sendAll (data : NSData) (h : capacity ≤ data.length) : NSData × OverflowingBuffer capacity :=
  let toSend := data.length - capacity
  (b.buffer ++ data.take toSend, ⟨data.drop toSend, by
    rw [List.length_drop]
    omega⟩)

def sendSome (data : NSData) (h : capacity < b.buffer.length + data.length)
    (h' : data.length < capacity) : NSData × OverflowingBuffer capacity :=
  let toSend := b.buffer.length + data.length - capacity
  (b.buffer.take toSend, ⟨b.buffer.drop toSend ++ data, by
    rw [List.length_append, List.length_drop]
    omega⟩)

def update (data : NSData) : NSData × OverflowingBuffer capacity :=
  if hall : capacity ≤ data.length then b.sendAll data hall
  else if happend : b.buffer.length + data.length ≤ capacity then
    ([], ⟨b.buffer ++ data, by rwa [List.length_append]⟩)
  else b.sendSome data (not_le.mp happend) (not_le.mp hall)

theorem update_eq (data : NSData) :
    (b.update data).1 = (b.buffer ++ data).rdrop capacity ∧
      (b.update data).2.buffer = (b.buffer ++ data).rtake capacity := by
  have hle := b.le
  simp only [List.rdrop, List.rtake, List.length_append, List.take_append, List.drop_append]
  unfold update
  split_ifs with hall happend
  · have hfront : b.buffer.length ≤ b.buffer.length + data.length - capacity := by omega
    have hback : b.buffer.length + data.length - capacity - b.buffer.length =
        data.length - capacity := by omega
    rw [hback, List.take_of_length_le hfront, List.drop_of_length_le hfront]
    exact ⟨rfl, rfl⟩
  · have hnothing : b.buffer.length + data.length - capacity = 0 := by omega
    simp [hnothing]
  · have hfront : b.buffer.length + data.length - capacity - b.buffer.length = 0 := by omega
    simp [sendSome, hfront]

@[simp]
theorem update_nil : b.update [] = ([], b) := by
  obtain ⟨hsent, hheld⟩ := b.update_eq []
  rw [List.append_nil, rdrop_of_length_le b.le] at hsent
  rw [List.append_nil, rtake_of_length_le b.le] at hheld
  exact Prod.ext hsent (OverflowingBuffer.ext hheld)

theorem update_append (a data : NSData) :
    b.update (a ++ data) =
      ((b.update a).1 ++ ((b.update a).2.update data).1, ((b.update a).2.update data).2) := by
  obtain ⟨hsent, hheld⟩ := b.update_eq a
  obtain ⟨hsent', hheld'⟩ := (b.update a).2.update_eq data
  obtain ⟨hsentAll, hheldAll⟩ := b.update_eq (a ++ data)
  refine Prod.ext ?_ (OverflowingBuffer.ext ?_)
  · rw [hsentAll, hsent, hsent', hheld, ← List.append_assoc, rdrop_append]
  · rw [hheldAll, hheld', hheld, rtake_append_rtake, List.append_assoc]

def updates : OverflowingBuffer capacity → List NSData → NSData × OverflowingBuffer capacity
  | b, [] => ([], b)
  | b, piece :: pieces =>
    let (sent, b') := b.update piece
    let (rest, b'') := b'.updates pieces
    (sent ++ rest, b'')

theorem updates_eq_update (pieces : List NSData) : b.updates pieces = b.update pieces.flatten := by
  induction pieces generalizing b with
  | nil => exact b.update_nil.symm
  | cons piece pieces ih =>
    rw [List.flatten_cons, update_append, ← ih]
    rfl

/-- For every capacity and all pieces: exactly the last bytes are held, as many as fit, and
each byte before them has left once and in order. -/
theorem updates_init (capacity : ℕ) (pieces : List NSData) :
    ((init : OverflowingBuffer capacity).updates pieces).1 = pieces.flatten.rdrop capacity ∧
      ((init : OverflowingBuffer capacity).updates pieces).2.buffer =
        pieces.flatten.rtake capacity := by
  rw [updates_eq_update]
  exact init.update_eq pieces.flatten

end OverflowingBuffer

/-- The first byte beyond a code is compared with its first one again. -/
def isEqualInConsistentTime (trusted untrusted : NSData) : Bool :=
  let result : UInt8 := if untrusted.length = trusted.length then 0 else 1
  untrusted.zipIdx.foldl (fun result (untrustedByte, i) =>
    result ||| (trusted.getD (i % trusted.length) 0 ^^^ untrustedByte)) result == 0

theorem foldl_or_eq_zero {α : Type*} (f : α → UInt8) (l : List α) (result : UInt8) :
    l.foldl (fun result x => result ||| f x) result = 0 ↔ result = 0 ∧ ∀ x ∈ l, f x = 0 := by
  induction l generalizing result with
  | nil => simp
  | cons x l ih => rw [List.foldl_cons, ih, UInt8.or_eq_zero_iff, List.forall_mem_cons, and_assoc]

theorem isEqualInConsistentTime_iff (trusted untrusted : NSData) :
    isEqualInConsistentTime trusted untrusted = true ↔ untrusted = trusted := by
  unfold isEqualInConsistentTime
  rw [beq_iff_eq]
  refine (foldl_or_eq_zero (fun (x : UInt8 × ℕ) =>
    trusted.getD (x.2 % trusted.length) 0 ^^^ x.1) _ _).trans ?_
  constructor
  · rintro ⟨hcount, hbytes⟩
    have hlength : untrusted.length = trusted.length := by
      by_contra hne
      rw [if_neg hne] at hcount
      cases hcount
    refine List.ext_getElem hlength fun i hi hi' => ?_
    have hbyte := hbytes (untrusted[i], i) (List.mk_mem_zipIdx_iff_getElem?.mpr
      (List.getElem?_eq_getElem hi))
    rw [UInt8.xor_eq_zero_iff, Nat.mod_eq_of_lt hi', List.getD_eq_getElem _ _ hi'] at hbyte
    exact hbyte.symm
  · rintro rfl
    refine ⟨if_pos rfl, ?_⟩
    rintro ⟨byte, i⟩ hbyte
    obtain ⟨hi, rfl⟩ := List.getElem?_eq_some_iff.mp (List.mk_mem_zipIdx_iff_getElem?.mp hbyte)
    rw [UInt8.xor_eq_zero_iff, Nat.mod_eq_of_lt hi, List.getD_eq_getElem _ _ hi]

structure EncryptorV3 where
  engine : Engine
  hmac : HMACV3
  pendingHeader : Option NSData

namespace EncryptorV3

/-- `init(password:encryptionSalt:hmacSalt:iv:)` -/
def withPassword (password : String) (encryptionSalt hmacSalt iv : NSData) : EncryptorV3 where
  engine := { operation := .encrypt, key := makeKey cc password encryptionSalt, iv := iv }
  hmac := { key := makeKey cc password hmacSalt }
  pendingHeader := some ([formatVersion, 1] ++ encryptionSalt ++ hmacSalt ++ iv)

/-- `init(encryptionKey:hmacKey:iv:)` -/
def withKeys (encryptionKey hmacKey : Key) (iv : NSData) : EncryptorV3 where
  engine := { operation := .encrypt, key := encryptionKey, iv := iv }
  hmac := { key := hmacKey }
  pendingHeader := some ([formatVersion, 0] ++ iv)

variable (e : EncryptorV3)

def handle (data : NSData) : NSData × EncryptorV3 :=
  let result := e.pendingHeader.getD [] ++ data
  (result, { e with pendingHeader := none, hmac := e.hmac.update result })

def update (data : NSData) : NSData × EncryptorV3 :=
  let (result, engine) := e.engine.update cc data
  handle { e with engine := engine } result

def finalData : NSData :=
  let (result, e) := e.handle (e.engine.finalData cc)
  result ++ e.hmac.finalData cc

/-- `encrypt(data:)`, which is `oneshot(data:)`. -/
def encrypt (data : NSData) : NSData :=
  let (result, e) := e.update cc data
  result ++ e.finalData cc

/-- It never fails. -/
def machine : Machine EncryptorV3 UInt8 UInt8 Error where
  update e data := .ok (e.update cc data)
  finalData e := .ok (e.finalData cc)

end EncryptorV3

structure DecryptorEngineV3 where
  buffer : OverflowingBuffer hmacSize
  hmac : HMACV3
  engine : Engine

namespace DecryptorEngineV3

def init (encryptionKey hmacKey iv header : NSData) : DecryptorEngineV3 where
  buffer := OverflowingBuffer.init
  hmac := HMACV3.update { key := hmacKey } header
  engine := { operation := .decrypt, key := encryptionKey, iv := iv }

def update (e : DecryptorEngineV3) (data : NSData) : NSData × DecryptorEngineV3 :=
  let (overflow, buffer) := e.buffer.update data
  let (result, engine) := e.engine.update cc overflow
  (result, ⟨buffer, e.hmac.update overflow, engine⟩)

def finalData (e : DecryptorEngineV3) : Except Error NSData :=
  if isEqualInConsistentTime (e.hmac.finalData cc) e.buffer.buffer then .ok (e.engine.finalData cc)
  else .error .hmacMismatch

@[simp]
theorem update_nil (e : DecryptorEngineV3) : e.update cc [] = ([], e) := by
  simp [update, HMACV3.update]

theorem update_append (e : DecryptorEngineV3) (a b : NSData) :
    e.update cc (a ++ b) =
      ((e.update cc a).1 ++ ((e.update cc a).2.update cc b).1, ((e.update cc a).2.update cc b).2) := by
  simp only [update, OverflowingBuffer.update_append, Engine.update_append, HMACV3.update,
    List.append_assoc]

end DecryptorEngineV3

inductive Credential where
  | password (password : String)
  | keys (encryptionKey hmacKey : Key)

def Credential.requiredHeaderSize : Credential → ℕ
  | password _ => passwordHeaderSize
  | keys _ _ => keyHeaderSize

structure DecryptorV3 where
  buffer : NSData := []
  decryptorEngine : Option DecryptorEngineV3 := none
  credential : Credential

namespace DecryptorV3

def preambleSize : ℕ := 1

def canDecrypt (preamble : NSData) : Bool := preamble[0]? = some 3

def makeEngine (credential : Credential) (header : NSData) : Except Error DecryptorEngineV3 :=
  if ¬ canDecrypt header then .error .unknownHeader
  else
    match credential with
    | .password password =>
      if header[1]? ≠ some 1 then .error .invalidCredentialType
      else
        let encryptionSalt := (header.drop 2).take 8
        let hmacSalt := (header.drop 10).take 8
        let iv := (header.drop 18).take 16
        .ok (.init (makeKey cc password encryptionSalt) (makeKey cc password hmacSalt) iv header)
    | .keys encryptionKey hmacKey =>
      if header[1]? ≠ some 0 then .error .invalidCredentialType
      else .ok (.init encryptionKey hmacKey ((header.drop 2).take 16) header)

def update (d : DecryptorV3) (data : NSData) : Except Error (NSData × DecryptorV3) :=
  match d.decryptorEngine with
  | some e =>
    let (result, e) := e.update cc data
    .ok (result, { d with decryptorEngine := some e })
  | none =>
    let buffer := d.buffer ++ data
    if buffer.length < d.credential.requiredHeaderSize then .ok ([], { d with buffer := buffer })
    else do
      let e ← makeEngine cc d.credential (buffer.take d.credential.requiredHeaderSize)
      let (result, e) := e.update cc (buffer.drop d.credential.requiredHeaderSize)
      return (result, { d with buffer := [], decryptorEngine := some e })

def finalData (d : DecryptorV3) : Except Error NSData :=
  match d.decryptorEngine with
  | some e => e.finalData cc
  | none => .error .messageTooShort

def machine : Machine DecryptorV3 UInt8 UInt8 Error := ⟨update cc, finalData cc⟩

end DecryptorV3

inductive VersionedDecryptorType where
  | decryptorV3

namespace VersionedDecryptorType

def preambleSize : VersionedDecryptorType → ℕ
  | decryptorV3 => DecryptorV3.preambleSize

def canDecrypt : VersionedDecryptorType → NSData → Bool
  | decryptorV3 => DecryptorV3.canDecrypt

end VersionedDecryptorType

structure Decryptor where
  decryptors : List VersionedDecryptorType := [.decryptorV3]
  buffer : NSData := []
  decryptor : Option DecryptorV3 := none
  password : String

namespace Decryptor

def update (d : Decryptor) (data : NSData) : Except Error (NSData × Decryptor) :=
  match d.decryptor with
  | some v => do
    let (result, v) ← v.update cc data
    return (result, { d with decryptor := some v })
  | none =>
    let buffer := d.buffer ++ data
    let (toCheck, decryptors) := d.decryptors.partition fun t => t.preambleSize ≤ buffer.length
    match toCheck.find? fun t => t.canDecrypt (buffer.take t.preambleSize) with
    | some .decryptorV3 => do
      let v : DecryptorV3 := { credential := .password d.password }
      let (result, v) ← v.update cc buffer
      return (result, { d with decryptors := decryptors, buffer := [], decryptor := some v })
    | none =>
      if decryptors.isEmpty then .error .unknownHeader
      else .ok ([], { d with decryptors := decryptors, buffer := buffer })

def finalData (d : Decryptor) : Except Error NSData :=
  match d.decryptor with
  | some v => v.finalData cc
  | none => .error .unknownHeader

/-- `decrypt(data:)`, which is `oneshot(data:)`. -/
def decrypt (d : Decryptor) (data : NSData) : Except Error NSData := do
  let (result, d) ← d.update cc data
  return result ++ (← d.finalData cc)

def machine : Machine Decryptor UInt8 UInt8 Error := ⟨update cc, finalData cc⟩

end Decryptor

namespace EncryptorV3
variable (e : EncryptorV3)

theorem update_append (a b : NSData) :
    e.update cc (a ++ b) =
      ((e.update cc a).1 ++ ((e.update cc a).2.update cc b).1, ((e.update cc a).2.update cc b).2) := by
  simp only [EncryptorV3.update, handle, Engine.update_append, HMACV3.update, Option.getD_none,
    List.nil_append, List.append_assoc]

theorem finalData_eq : e.finalData cc = (e.update cc []).1 ++ (e.update cc []).2.finalData cc := by
  simp [EncryptorV3.update, EncryptorV3.finalData, handle, HMACV3.update, HMACV3.finalData]

theorem splits : (machine cc).Splits fun _ => True where
  keeps _ _ _ _ _ _ := trivial
  append e a b _ := congrArg Except.ok (e.update_append cc a b)
  empty e _ := congrArg Except.ok (e.finalData_eq cc)

end EncryptorV3

namespace DecryptorV3

/-- Without an engine there is no whole header. -/
def Waits (d : DecryptorV3) : Prop :=
  d.decryptorEngine = none → d.buffer.length < d.credential.requiredHeaderSize

variable {cc} (d : DecryptorV3) {e : DecryptorEngineV3} {data : NSData}

theorem update_running (h : d.decryptorEngine = some e) :
    d.update cc data =
      .ok ((e.update cc data).1, { d with decryptorEngine := some (e.update cc data).2 }) := by
  simp [update, h]

theorem update_short (h : d.decryptorEngine = none)
    (hshort : (d.buffer ++ data).length < d.credential.requiredHeaderSize) :
    d.update cc data = .ok ([], { d with buffer := d.buffer ++ data }) := by
  simp only [update, h]
  rw [if_pos hshort]

def runs (e : DecryptorEngineV3) : DecryptorV3 :=
  { d with buffer := [], decryptorEngine := some e }

theorem update_header (h : d.decryptorEngine = none)
    (hlong : d.credential.requiredHeaderSize ≤ (d.buffer ++ data).length) :
    d.update cc data =
      (makeEngine cc d.credential ((d.buffer ++ data).take d.credential.requiredHeaderSize)).map
        fun e => ((e.update cc ((d.buffer ++ data).drop d.credential.requiredHeaderSize)).1,
          d.runs (e.update cc ((d.buffer ++ data).drop d.credential.requiredHeaderSize)).2) := by
  simp only [update, h]
  rw [if_neg (not_lt.mpr hlong)]
  rfl

theorem update_append (a b : NSData) :
    d.update cc (a ++ b) = (d.update cc a).bind fun (result, d') =>
      (d'.update cc b).bind fun (result', d'') => .ok (result ++ result', d'') := by
  cases hengine : d.decryptorEngine with
  | some e =>
    rw [update_running d hengine, update_running d hengine, DecryptorEngineV3.update_append]
    rfl
  | none =>
    by_cases ha : (d.buffer ++ a).length < d.credential.requiredHeaderSize
    · rw [update_short d hengine ha]
      show _ = (update cc { d with buffer := d.buffer ++ a } b).bind _
      by_cases hab : (d.buffer ++ (a ++ b)).length < d.credential.requiredHeaderSize
      · rw [update_short d hengine hab, update_short { d with buffer := d.buffer ++ a } hengine
          (by rwa [List.append_assoc]), ← List.append_assoc]
        rfl
      · rw [update_header d hengine (not_lt.mp hab),
          update_header { d with buffer := d.buffer ++ a } hengine
            (by simpa only [List.append_assoc] using not_lt.mp hab), ← List.append_assoc]
        show Except.map _ (makeEngine cc d.credential _) =
          (Except.map _ (makeEngine cc d.credential _)).bind _
        generalize makeEngine cc d.credential _ = made
        cases made <;> rfl
    · -- the engine is made of the same header, and the rest of both pieces follows it
      have hsize := not_lt.mp ha
      rw [update_header d hengine hsize, update_header d hengine (by
        rw [← List.append_assoc, List.length_append]
        omega), ← List.append_assoc, List.take_append_of_le_length hsize,
        List.drop_append_of_le_length hsize]
      generalize makeEngine cc d.credential _ = made
      cases made with
      | error error => rfl
      | ok e =>
        simp only [Except.map, Except.bind, update_running (d.runs _) rfl,
          DecryptorEngineV3.update_append]
        rfl

theorem finalData_eq (hd : d.Waits) : d.finalData cc = (d.update cc []).bind fun (result, d') =>
    (d'.finalData cc).bind fun rest => .ok (result ++ rest) := by
  cases hengine : d.decryptorEngine with
  | some e =>
    rw [update_running d hengine]
    simp only [finalData, hengine, Except.bind, DecryptorEngineV3.update_nil]
    cases e.finalData cc <;> rfl
  | none =>
    rw [update_short d hengine (by simpa using hd hengine)]
    simp only [finalData, hengine]
    rfl

theorem waits_of_update {d d' : DecryptorV3} {result : NSData}
    (h : d.update cc data = .ok (result, d')) : d'.Waits := by
  cases hengine : d.decryptorEngine with
  | some e =>
    rw [update_running d hengine] at h
    cases h
    exact fun hnone => by cases hnone
  | none =>
    by_cases hshort : (d.buffer ++ data).length < d.credential.requiredHeaderSize
    · rw [update_short d hengine hshort] at h
      cases h
      exact fun _ => hshort
    · rw [update_header d hengine (not_lt.mp hshort)] at h
      cases hmake : makeEngine cc d.credential
          ((d.buffer ++ data).take d.credential.requiredHeaderSize) with
      | error error =>
        rw [hmake] at h
        cases h
      | ok e =>
        rw [hmake] at h
        cases h
        exact fun hnone => by cases hnone

theorem splits : (machine cc).Splits Waits where
  keeps _ _ _ _ _ h := waits_of_update h
  append d a b _ := d.update_append a b
  empty d hd := d.finalData_eq hd

end DecryptorV3

namespace Decryptor

/-- The first byte decides on the format, and nothing is kept before it comes. -/
structure Waits (d : Decryptor) : Prop where
  fresh : d.decryptor = none → d.buffer = [] ∧ d.decryptors = [.decryptorV3]
  running : ∀ v, d.decryptor = some v → v.Waits

variable {cc} (d : Decryptor) {v : DecryptorV3}

theorem update_running (h : d.decryptor = some v) (data : NSData) :
    d.update cc data = (v.update cc data).map fun (result, v) =>
      (result, { d with decryptor := some v }) := by
  simp only [update, h]
  rfl

def decrypts (v : DecryptorV3) : Decryptor :=
  { d with decryptors := [], buffer := [], decryptor := some v }

theorem update_fresh (hd : d.Waits) (h : d.decryptor = none) (data : NSData) :
    d.update cc data =
      match data with
      | [] => .ok ([], d)
      | byte :: data =>
        if byte = 3 then
          (DecryptorV3.update cc { credential := .password d.password } (byte :: data)).map
            fun (result, v) => (result, d.decrypts v)
        else .error .unknownHeader := by
  obtain ⟨hbuffer, hdecryptors⟩ := hd.fresh h
  cases data with
  | nil =>
    obtain ⟨decryptors, buffer, decryptor, password⟩ := d
    simp_all [update, VersionedDecryptorType.preambleSize, DecryptorV3.preambleSize]
  | cons byte data =>
    by_cases hbyte : byte = 3
    · simp [update, h, hbuffer, hdecryptors, VersionedDecryptorType.preambleSize,
        DecryptorV3.preambleSize, VersionedDecryptorType.canDecrypt, DecryptorV3.canDecrypt, hbyte]
      rfl
    · simp [update, h, hbuffer, hdecryptors, VersionedDecryptorType.preambleSize,
        DecryptorV3.preambleSize, VersionedDecryptorType.canDecrypt, DecryptorV3.canDecrypt, hbyte]

theorem Waits.update {d : Decryptor} (hd : d.Waits) {data result : NSData} {d' : Decryptor}
    (h : d.update cc data = .ok (result, d')) : d'.Waits := by
  cases hdecryptor : d.decryptor with
  | some v =>
    rw [d.update_running hdecryptor] at h
    cases hv : v.update cc data with
    | error error =>
      rw [hv] at h
      cases h
    | ok updated =>
      rw [hv] at h
      cases h
      refine ⟨(by cases ·), fun v' hv' => ?_⟩
      cases hv'
      exact DecryptorV3.waits_of_update hv
  | none =>
    rw [d.update_fresh hd hdecryptor] at h
    cases data with
    | nil =>
      cases h
      exact hd
    | cons byte data =>
      by_cases hbyte : byte = 3
      · simp only [if_pos hbyte] at h
        cases hv : DecryptorV3.update cc { credential := .password d.password } (byte :: data) with
        | error error =>
          rw [hv] at h
          cases h
        | ok updated =>
          rw [hv] at h
          cases h
          refine ⟨(by cases ·), fun v' hv' => ?_⟩
          cases hv'
          exact DecryptorV3.waits_of_update hv
      · simp only [if_neg hbyte] at h
        cases h

theorem update_append (hd : d.Waits) (a b : NSData) :
    d.update cc (a ++ b) = (d.update cc a).bind fun (result, d') =>
      (d'.update cc b).bind fun (result', d'') => .ok (result ++ result', d'') := by
  cases hdecryptor : d.decryptor with
  | some v =>
    rw [d.update_running hdecryptor, d.update_running hdecryptor, DecryptorV3.update_append]
    cases hv : v.update cc a with
    | error error => rfl
    | ok updated =>
      simp only [Except.map, Except.bind, update_running { d with decryptor := some updated.2 } rfl]
      cases updated.2.update cc b <;> rfl
  | none =>
    cases a with
    | nil =>
      rw [List.nil_append, d.update_fresh hd hdecryptor []]
      show d.update cc b = (d.update cc b).bind _
      cases d.update cc b <;> rfl
    | cons byte a =>
      rw [d.update_fresh hd hdecryptor, d.update_fresh hd hdecryptor]
      by_cases hbyte : byte = 3
      · simp only [List.cons_append, if_pos hbyte]
        rw [← List.cons_append, DecryptorV3.update_append]
        cases hv : DecryptorV3.update cc { credential := .password d.password } (byte :: a) with
        | error error => rfl
        | ok updated =>
          simp only [Except.map, Except.bind, update_running (d.decrypts updated.2) rfl]
          cases updated.2.update cc b <;> rfl
      · simp only [List.cons_append, if_neg hbyte]
        rfl

theorem finalData_eq (hd : d.Waits) : d.finalData cc = (d.update cc []).bind fun (result, d') =>
    (d'.finalData cc).bind fun rest => .ok (result ++ rest) := by
  cases hdecryptor : d.decryptor with
  | some v =>
    rw [d.update_running hdecryptor]
    simp only [finalData, hdecryptor, v.finalData_eq (hd.running v hdecryptor)]
    cases v.update cc [] <;> rfl
  | none =>
    rw [d.update_fresh hd hdecryptor]
    simp only [finalData, hdecryptor, Except.bind]

theorem splits : (machine cc).Splits Waits where
  keeps _ _ _ _ hd h := hd.update h
  append _ a b hd := update_append _ hd a b
  empty _ hd := finalData_eq _ hd

end Decryptor

end LiChat.RNCryptor
