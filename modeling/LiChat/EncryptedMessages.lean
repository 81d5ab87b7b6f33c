import LiChat.RNCryptorV3

/-!
# Encrypted messages

A packet is a header, the encrypted data and the code of both.  However it is cut into pieces,
a decryptor with the same credential accepts it, and it accepts nothing else.
-/

namespace LiChat.RNCryptor
open Streaming FormatV3

variable (cc : CommonCrypto)

def packet (hmacKey header body : NSData) : NSData :=
  header ++ body ++ cc.hmac hmacKey (header ++ body)

theorem EncryptorV3.run_eq (encryptionKey hmacKey iv header : NSData) (pieces : List NSData) :
    (EncryptorV3.machine cc).run
        { engine := { operation := .encrypt, key := encryptionKey, iv := iv }
          hmac := { key := hmacKey }
          pendingHeader := some header } pieces =
      .ok (packet cc hmacKey header (cc.crypt .encrypt encryptionKey iv pieces.flatten)) := by
  rw [(EncryptorV3.splits cc).run_flatten trivial]
  refine congrArg Except.ok ?_
  simp [EncryptorV3.finalData, handle, HMACV3.update, HMACV3.finalData, Engine.returned,
    Engine.finalData, cc.update_nil, packet, CommonCrypto.crypt, List.append_assoc]

/-- `header` is authenticated with the data. -/
def DecryptorEngineV3.decrypted (encryptionKey hmacKey iv header data : NSData) :
    Except Error NSData :=
  if data.rtake hmacSize = cc.hmac hmacKey (header ++ data.rdrop hmacSize) then
    .ok (cc.crypt .decrypt encryptionKey iv (data.rdrop hmacSize))
  else .error .hmacMismatch

theorem DecryptorEngineV3.finalData_update (encryptionKey hmacKey iv header data : NSData) :
    let (result, e) := (init encryptionKey hmacKey iv header).update cc data
    (e.finalData cc).map (result ++ ·) = decrypted cc encryptionKey hmacKey iv header data := by
  obtain ⟨hsent, hheld⟩ := (OverflowingBuffer.init : OverflowingBuffer hmacSize).update_eq data
  rw [show OverflowingBuffer.init.buffer ++ data = data from rfl] at hsent hheld
  simp only [update, init, finalData, decrypted, hsent, hheld, HMACV3.update, HMACV3.finalData,
    Engine.update, Engine.returned, Engine.finalData, cc.update_nil, List.nil_append,
    isEqualInConsistentTime_iff]
  split_ifs <;> rfl

theorem DecryptorEngineV3.decrypted_iff {encryptionKey hmacKey iv header data result : NSData} :
    decrypted cc encryptionKey hmacKey iv header data = .ok result ↔
      ∃ body, header ++ data = packet cc hmacKey header body ∧
        result = cc.crypt .decrypt encryptionKey iv body := by
  unfold decrypted packet
  constructor
  · intro h
    split_ifs at h with hcode
    refine ⟨data.rdrop hmacSize, ?_, (Except.ok.inj h).symm⟩
    rw [← hcode, List.append_assoc, rdrop_append_rtake]
  · rintro ⟨body, hdata, rfl⟩
    rw [List.append_assoc] at hdata
    obtain rfl := List.append_cancel_left hdata
    have hcode : (cc.hmac hmacKey (header ++ body)).length = hmacSize := cc.length_hmac _ _
    rw [rtake_of_length hcode, rdrop_of_length hcode, if_pos rfl]

namespace DecryptorV3

def decrypted (credential : Credential) (data : NSData) : Except Error NSData :=
  let size := credential.requiredHeaderSize
  let header := data.take size
  if data.length < size then .error .messageTooShort
  else if data.head? ≠ some 3 then .error .unknownHeader
  else
    match credential with
    | .password password =>
      if data[1]? ≠ some 1 then .error .invalidCredentialType
      else DecryptorEngineV3.decrypted cc (makeKey cc password ((header.drop 2).take 8))
        (makeKey cc password ((header.drop 10).take 8)) ((header.drop 18).take 16) header
        (data.drop size)
    | .keys encryptionKey hmacKey =>
      if data[1]? ≠ some 0 then .error .invalidCredentialType
      else DecryptorEngineV3.decrypted cc encryptionKey hmacKey ((header.drop 2).take 16) header
        (data.drop size)

theorem requiredHeaderSize_pos (credential : Credential) : 2 ≤ credential.requiredHeaderSize := by
  cases credential with
  | password => exact (by decide : 2 ≤ passwordHeaderSize)
  | keys => exact (by decide : 2 ≤ keyHeaderSize)

theorem makeEngine_bind (credential : Credential) (data : NSData)
    (hlong : credential.requiredHeaderSize ≤ data.length) :
    (makeEngine cc credential (data.take credential.requiredHeaderSize)).bind (fun e =>
      ((e.update cc (data.drop credential.requiredHeaderSize)).2.finalData cc).map
        ((e.update cc (data.drop credential.requiredHeaderSize)).1 ++ ·)) =
      decrypted cc credential data := by
  have hsize := requiredHeaderSize_pos credential
  have hfirst : (data.take credential.requiredHeaderSize)[0]? = data.head? := by
    rw [List.getElem?_take_of_lt (by omega), List.head?_eq_getElem?]
  have hsecond : (data.take credential.requiredHeaderSize)[1]? = data[1]? :=
    List.getElem?_take_of_lt (by omega)
  unfold makeEngine decrypted canDecrypt
  rw [if_neg (not_lt.mpr hlong), hfirst]
  by_cases hbyte : data.head? = some 3
  · rw [if_neg (not_not.mpr hbyte), if_neg (by simp [hbyte])]
    cases credential with
    | password password =>
      simp only [hsecond]
      split_ifs
      · rfl
      · exact DecryptorEngineV3.finalData_update cc _ _ _ _ _
    | keys encryptionKey hmacKey =>
      simp only [hsecond]
      split_ifs
      · rfl
      · exact DecryptorEngineV3.finalData_update cc _ _ _ _ _
  · rw [if_pos hbyte, if_pos (by simp [hbyte])]
    rfl

theorem run_eq (credential : Credential) (pieces : List NSData) :
    (machine cc).run { credential := credential } pieces = decrypted cc credential pieces.flatten := by
  have hfresh : Waits { credential := credential } :=
    fun _ => Nat.lt_of_lt_of_le Nat.two_pos (requiredHeaderSize_pos credential)
  rw [splits.run_flatten hfresh]
  generalize pieces.flatten = data
  show (update cc { credential := credential } data).bind (fun output =>
    (output.2.finalData cc).bind fun rest => .ok (output.1 ++ rest)) = _
  by_cases hshort : data.length < credential.requiredHeaderSize
  · rw [update_short { credential := credential } rfl hshort]
    exact (if_pos hshort).symm
  · rw [update_header { credential := credential } rfl (not_lt.mp hshort),
      ← makeEngine_bind cc credential data (not_lt.mp hshort)]
    show Except.bind (Except.map _ (makeEngine cc credential (data.take _))) _ = _
    generalize makeEngine cc credential (data.take _) = made
    cases made <;> rfl

end DecryptorV3

namespace Decryptor

theorem run_eq (password : String) (pieces : List NSData) :
    (machine cc).run { password := password } pieces =
      if pieces.flatten.head? = some 3 then
        DecryptorV3.decrypted cc (.password password) pieces.flatten
      else .error .unknownHeader := by
  have hfresh : Waits { password := password } :=
    ⟨fun _ => ⟨rfl, rfl⟩, fun _ h => by cases h⟩
  rw [splits.run_flatten hfresh]
  generalize pieces.flatten = data
  show (update cc { password := password } data).bind (fun output =>
    (output.2.finalData cc).bind fun rest => .ok (output.1 ++ rest)) = _
  rw [update_fresh _ hfresh rfl]
  cases data with
  | nil => rfl
  | cons byte data =>
    by_cases hbyte : byte = 3
    · have hrun := DecryptorV3.run_eq cc (.password password) [byte :: data]
      rw [List.flatten_singleton] at hrun
      change (DecryptorV3.update cc { credential := .password password } (byte :: data)).bind
        (fun output => (output.2.finalData cc).bind fun rest => .ok (output.1 ++ rest)) = _ at hrun
      simp only [if_pos hbyte, List.head?_cons, Option.some.injEq, ← hrun]
      cases DecryptorV3.update cc { credential := .password password } (byte :: data) <;> rfl
    · simp only [if_neg hbyte, List.head?_cons, Option.some.injEq]
      rfl

end Decryptor

/-- What `randomData` gives for one encryption. -/
structure RandomData where
  encryptionSalt : NSData
  hmacSalt : NSData
  iv : NSData
  length_encryptionSalt : encryptionSalt.length = saltSize
  length_hmacSalt : hmacSalt.length = saltSize
  length_iv : iv.length = ivSize

namespace Credential

def encryptionKey (r : RandomData) : Credential → NSData
  | .password p => makeKey cc p r.encryptionSalt
  | .keys encryptionKey _ => encryptionKey

def hmacKey (r : RandomData) : Credential → NSData
  | .password p => makeKey cc p r.hmacSalt
  | .keys _ hmacKey => hmacKey

def header (r : RandomData) : Credential → NSData
  | .password _ => [formatVersion, 1] ++ r.encryptionSalt ++ r.hmacSalt ++ r.iv
  | .keys _ _ => [formatVersion, 0] ++ r.iv

def packet (credential : Credential) (r : RandomData) (body : NSData) : NSData :=
  RNCryptor.packet cc (credential.hmacKey cc r) (credential.header r) body

def encryptor (r : RandomData) : Credential → EncryptorV3
  | .password p => .withPassword cc p r.encryptionSalt r.hmacSalt r.iv
  | .keys encryptionKey hmacKey => .withKeys encryptionKey hmacKey r.iv

variable (credential : Credential) (r : RandomData)

theorem length_encryptionKey : (credential.encryptionKey cc r).length = keySize := by
  cases credential with
  | password p => exact cc.length_key _ _
  | keys encryptionKey hmacKey => exact encryptionKey.property

theorem length_header : (credential.header r).length = credential.requiredHeaderSize := by
  cases credential with
  | password p =>
    simp [header, r.length_encryptionSalt, r.length_hmacSalt, r.length_iv, requiredHeaderSize,
      saltSize, ivSize, passwordHeaderSize]
  | keys encryptionKey hmacKey =>
    simp [header, r.length_iv, requiredHeaderSize, ivSize, keyHeaderSize]

theorem encryptor_run (pieces : List NSData) :
    (EncryptorV3.machine cc).run (credential.encryptor cc r) pieces =
      .ok (credential.packet cc r
        (cc.crypt .encrypt (credential.encryptionKey cc r) r.iv pieces.flatten)) := by
  cases credential with
  | password p => exact EncryptorV3.run_eq cc _ _ _ _ pieces
  | keys encryptionKey hmacKey => exact EncryptorV3.run_eq cc _ _ _ _ pieces

end Credential

theorem DecryptorV3.decrypted_header (credential : Credential) (r : RandomData) (data : NSData) :
    decrypted cc credential (credential.header r ++ data) =
      DecryptorEngineV3.decrypted cc (credential.encryptionKey cc r) (credential.hmacKey cc r) r.iv
        (credential.header r) data := by
  have hsize := credential.length_header r
  unfold decrypted
  rw [if_neg (by rw [List.length_append]; omega), List.take_left' hsize, List.drop_left' hsize]
  cases credential with
  | password password =>
    have h₁ : r.encryptionSalt.length = 8 := r.length_encryptionSalt
    have h₂ : r.hmacSalt.length = 8 := r.length_hmacSalt
    have hsalts : (r.encryptionSalt ++ r.hmacSalt).length = 16 := by
      rw [List.length_append, h₁, h₂]
    have hencryption : (r.encryptionSalt ++ (r.hmacSalt ++ r.iv)).take 8 = r.encryptionSalt :=
      List.take_left' h₁
    have hhmac : ((r.encryptionSalt ++ (r.hmacSalt ++ r.iv)).drop 8).take 8 = r.hmacSalt := by
      rw [List.drop_left' h₁, List.take_left' h₂]
    have hiv : ((r.encryptionSalt ++ (r.hmacSalt ++ r.iv)).drop 16).take 16 = r.iv := by
      rw [← List.append_assoc, List.drop_left' hsalts]
      exact List.take_of_length_le r.length_iv.le
    simp [Credential.header, Credential.encryptionKey, Credential.hmacKey, formatVersion, hencryption,
      hhmac, hiv]
  | keys encryptionKey hmacKey =>
    have hiv : r.iv.take 16 = r.iv := List.take_of_length_le r.length_iv.le
    simp [Credential.header, Credential.encryptionKey, Credential.hmacKey, formatVersion, hiv]

def Credential.kind : Credential → UInt8
  | .password _ => 1
  | .keys _ _ => 0

theorem Credential.exists_header (credential : Credential) {data : NSData}
    (hsize : credential.requiredHeaderSize ≤ data.length) (hfirst : data.head? = some 3)
    (hkind : data[1]? = some credential.kind) :
    ∃ r, data.take credential.requiredHeaderSize = credential.header r := by
  match data with
  | first :: second :: rest =>
    obtain rfl := Option.some.inj hfirst
    obtain rfl := Option.some.inj hkind
    cases credential with
    | password password =>
      have hrest : 32 ≤ rest.length := by
        simpa [requiredHeaderSize, passwordHeaderSize] using hsize
      refine ⟨⟨rest.take 8, (rest.drop 8).take 8, (rest.drop 16).take 16, ?_, ?_, ?_⟩, ?_⟩
      · rw [List.length_take_of_le (by omega)]
        rfl
      · rw [List.length_take_of_le (by rw [List.length_drop]; omega)]
        rfl
      · rw [List.length_take_of_le (by rw [List.length_drop]; omega)]
        rfl
      · have hsalts : rest.take (8 + 8) = rest.take 8 ++ (rest.drop 8).take 8 := List.take_add
        have hall : rest.take (16 + 16) = rest.take 16 ++ (rest.drop 16).take 16 := List.take_add
        simp [requiredHeaderSize, passwordHeaderSize, header, formatVersion, kind, hall, hsalts]
    | keys encryptionKey hmacKey =>
      have hrest : 16 ≤ rest.length := by
        simpa [requiredHeaderSize, keyHeaderSize] using hsize
      refine ⟨⟨List.replicate 8 0, List.replicate 8 0, rest.take 16, ?_, ?_, ?_⟩, ?_⟩
      · exact List.length_replicate
      · exact List.length_replicate
      · exact List.length_take_of_le hrest
      · simp [requiredHeaderSize, keyHeaderSize, header, formatVersion, kind]

namespace Credential
variable (credential credential' : Credential) (r : RandomData) (body : NSData)

theorem head?_packet : (credential.packet cc r body).head? = some 3 := by
  cases credential <;> rfl

theorem getElem?_packet : (credential.packet cc r body)[1]? = some credential.kind := by
  cases credential <;> rfl

theorem requiredHeaderSize_le_length_packet :
    credential'.requiredHeaderSize ≤ (credential.packet cc r body).length := by
  have hlong : credential'.requiredHeaderSize ≤ keyHeaderSize + hmacSize := by
    cases credential' with
    | password => exact (by decide : passwordHeaderSize ≤ keyHeaderSize + hmacSize)
    | keys => exact (by decide : keyHeaderSize ≤ keyHeaderSize + hmacSize)
  have hshort : keyHeaderSize ≤ credential.requiredHeaderSize := by
    cases credential with
    | password => exact (by decide : keyHeaderSize ≤ passwordHeaderSize)
    | keys => exact le_refl keyHeaderSize
  rw [packet, RNCryptor.packet, List.length_append, List.length_append, length_header,
    cc.length_hmac]
  omega

end Credential

namespace DecryptorV3
variable {credential : Credential} {data : NSData}

theorem decrypted_short (hsize : data.length < credential.requiredHeaderSize) :
    decrypted cc credential data = .error .messageTooShort :=
  if_pos hsize

theorem decrypted_first (hsize : credential.requiredHeaderSize ≤ data.length)
    (hfirst : data.head? ≠ some 3) : decrypted cc credential data = .error .unknownHeader :=
  (if_neg (not_lt.mpr hsize)).trans (if_pos hfirst)

theorem decrypted_kind (hsize : credential.requiredHeaderSize ≤ data.length)
    (hfirst : data.head? = some 3) (hkind : data[1]? ≠ some credential.kind) :
    decrypted cc credential data = .error .invalidCredentialType := by
  refine ((if_neg (not_lt.mpr hsize)).trans (if_neg (not_not.mpr hfirst))).trans ?_
  cases credential with
  | password password => exact if_pos hkind
  | keys encryptionKey hmacKey => exact if_pos hkind

/-- Where a whole header comes first, only the code decides. -/
theorem decrypted_of_header (hsize : credential.requiredHeaderSize ≤ data.length)
    (hfirst : data.head? = some 3) (hkind : data[1]? = some credential.kind) :
    decrypted cc credential data = .error .hmacMismatch ∨
      ∃ r body, data = credential.packet cc r body ∧ decrypted cc credential data =
        .ok (cc.crypt .decrypt (credential.encryptionKey cc r) r.iv body) := by
  obtain ⟨r, hr⟩ := credential.exists_header hsize hfirst hkind
  have hdata : credential.header r ++ data.drop credential.requiredHeaderSize = data := by
    rw [← hr, List.take_append_drop]
  have heq := decrypted_header cc credential r (data.drop credential.requiredHeaderSize)
  rw [hdata] at heq
  cases hresult : decrypted cc credential data with
  | ok result =>
    obtain ⟨body, hbody, rfl⟩ := (DecryptorEngineV3.decrypted_iff cc).mp (heq.symm.trans hresult)
    exact .inr ⟨r, body, hdata.symm.trans hbody, rfl⟩
  | error error =>
    rw [hresult, DecryptorEngineV3.decrypted] at heq
    split_ifs at heq
    exact .inl heq

theorem decrypted_packet (credential : Credential) (r : RandomData) (body : NSData) :
    decrypted cc credential (credential.packet cc r body) =
      .ok (cc.crypt .decrypt (credential.encryptionKey cc r) r.iv body) := by
  rw [Credential.packet, packet, List.append_assoc, decrypted_header,
    DecryptorEngineV3.decrypted_iff]
  exact ⟨body, by rw [packet, List.append_assoc], rfl⟩

theorem exists_packet {result : NSData} (h : decrypted cc credential data = .ok result) :
    ∃ r body, data = credential.packet cc r body ∧
      result = cc.crypt .decrypt (credential.encryptionKey cc r) r.iv body := by
  by_cases hsize : data.length < credential.requiredHeaderSize
  · rw [decrypted_short cc hsize] at h
    cases h
  by_cases hfirst : data.head? = some 3
  · by_cases hkind : data[1]? = some credential.kind
    · rcases decrypted_of_header cc (not_lt.mp hsize) hfirst hkind with hmac | ⟨r, body, hdata, hok⟩
      · rw [hmac] at h
        cases h
      · rw [hok] at h
        exact ⟨r, body, hdata, (Except.ok.inj h).symm⟩
    · rw [decrypted_kind cc (not_lt.mp hsize) hfirst hkind] at h
      cases h
  · rw [decrypted_first cc (not_lt.mp hsize) hfirst] at h
    cases h

/-- The packets of the credential are accepted, and each failure has its own kind of data. -/
theorem decrypted_iff (credential : Credential) (data : NSData) :
    (∀ result, decrypted cc credential data = .ok result ↔
      ∃ r body, data = credential.packet cc r body ∧
        result = cc.crypt .decrypt (credential.encryptionKey cc r) r.iv body) ∧
    (decrypted cc credential data = .error .messageTooShort ↔
      data.length < credential.requiredHeaderSize) ∧
    (decrypted cc credential data = .error .unknownHeader ↔
      credential.requiredHeaderSize ≤ data.length ∧ data.head? ≠ some 3) ∧
    (decrypted cc credential data = .error .invalidCredentialType ↔
      credential.requiredHeaderSize ≤ data.length ∧ data.head? = some 3 ∧
        data[1]? ≠ some credential.kind) ∧
    decrypted cc credential data ≠ .error .memoryFailure := by
  refine ⟨fun result => ⟨exists_packet cc, ?_⟩, ?_⟩
  · rintro ⟨r, body, rfl, rfl⟩
    exact decrypted_packet cc credential r body
  by_cases hsize : data.length < credential.requiredHeaderSize
  · rw [decrypted_short cc hsize]
    simp [hsize, not_le.mpr hsize]
  by_cases hfirst : data.head? = some 3
  · by_cases hkind : data[1]? = some credential.kind
    · rcases decrypted_of_header cc (not_lt.mp hsize) hfirst hkind with h | ⟨_, _, -, h⟩
      · rw [h]
        simp [hsize, hfirst, hkind]
      · rw [h]
        simp [hsize, hfirst, hkind]
    · rw [decrypted_kind cc (not_lt.mp hsize) hfirst hkind]
      simp [hsize, hfirst, hkind, not_lt.mp hsize]
  · rw [decrypted_first cc (not_lt.mp hsize) hfirst]
    simp [hsize, hfirst, not_lt.mp hsize]

end DecryptorV3

theorem Decryptor.run_ok_iff (password : String) (pieces : List NSData) (result : NSData) :
    (Decryptor.machine cc).run { password := password } pieces = .ok result ↔
      ∃ r body, pieces.flatten = (Credential.password password).packet cc r body ∧
        result = cc.crypt .decrypt (makeKey cc password r.encryptionSalt) r.iv body := by
  rw [Decryptor.run_eq]
  by_cases hfirst : pieces.flatten.head? = some 3
  · rw [if_pos hfirst]
    exact (DecryptorV3.decrypted_iff cc (.password password) pieces.flatten).1 result
  · have hpacket : ∀ r body,
        pieces.flatten ≠ (Credential.password password).packet cc r body := by
      rintro r body h
      exact hfirst (by rw [h]; rfl)
    rw [if_neg hfirst]
    simp [hpacket]

/-- For every password and all pieces: the decryptor gives the data of a packet of that
password, and it fails on everything else, in a way that the header decides on except for the
code. -/
theorem decryptor_run_iff (password : String) (pieces : List NSData) :
    let run := (Decryptor.machine cc).run { password := password } pieces
    let data := pieces.flatten
    (∀ result, run = .ok result ↔
      ∃ r body, data = (Credential.password password).packet cc r body ∧
        result = cc.crypt .decrypt (makeKey cc password r.encryptionSalt) r.iv body) ∧
    (run = .error .unknownHeader ↔ data.head? ≠ some 3) ∧
    (run = .error .messageTooShort ↔ data.head? = some 3 ∧ data.length < passwordHeaderSize) ∧
    (run = .error .invalidCredentialType ↔
      data.head? = some 3 ∧ passwordHeaderSize ≤ data.length ∧ data[1]? ≠ some 1) ∧
    run ≠ .error .memoryFailure := by
  intro run data
  obtain ⟨-, hshort, hunknown, hkind, hmemory⟩ :=
    DecryptorV3.decrypted_iff cc (.password password) data
  refine ⟨Decryptor.run_ok_iff cc password pieces, ?_⟩
  have hrun : run = _ := Decryptor.run_eq cc password pieces
  by_cases hfirst : data.head? = some 3
  · rw [hrun, if_pos hfirst]
    refine ⟨?_, ?_, ?_, hmemory⟩
    · rw [hunknown]
      simp [hfirst]
    · rw [hshort]
      simp [hfirst, Credential.requiredHeaderSize]
    · rw [hkind]
      simp [hfirst, Credential.requiredHeaderSize, Credential.kind]
  · rw [hrun, if_neg hfirst]
    simp [hfirst]

/-- For every credential, all random data and all pieces: what the encryptor writes is read
back, however it is cut. -/
theorem decryptor_reads (credential : Credential) (r : RandomData) (pieces : List NSData) :
    ∃ written, (EncryptorV3.machine cc).run (credential.encryptor cc r) pieces = .ok written ∧
      ∀ pieces' : List NSData, pieces'.flatten = written →
        (DecryptorV3.machine cc).run { credential := credential } pieces' = .ok pieces.flatten ∧
        ∀ password, credential = .password password →
          (Decryptor.machine cc).run { password := password } pieces' = .ok pieces.flatten := by
  refine ⟨_, credential.encryptor_run cc r pieces, fun pieces' hpieces => ?_⟩
  have hdata : DecryptorV3.decrypted cc credential pieces'.flatten = .ok pieces.flatten := by
    rw [hpieces, DecryptorV3.decrypted_packet,
      cc.crypt_crypt (credential.length_encryptionKey cc r) r.length_iv]
  refine ⟨(DecryptorV3.run_eq cc credential pieces').trans hdata, ?_⟩
  rintro password rfl
  rw [Decryptor.run_eq, if_pos (by rw [hpieces]; rfl), hdata]

/-- A decryptor with keys rejects every packet of a password, and one with a password every
packet of keys, whatever the keys and the password are. -/
theorem decryptor_rejects_kind (credential credential' : Credential) (r : RandomData)
    (pieces : List NSData) (hkind : credential.kind ≠ credential'.kind) :
    ∃ written, (EncryptorV3.machine cc).run (credential.encryptor cc r) pieces = .ok written ∧
      ∀ pieces' : List NSData, pieces'.flatten = written →
        (DecryptorV3.machine cc).run { credential := credential' } pieces' =
            .error .invalidCredentialType ∧
          ∀ password, credential' = .password password →
            (Decryptor.machine cc).run { password := password } pieces' =
              .error .invalidCredentialType := by
  refine ⟨_, credential.encryptor_run cc r pieces, fun pieces' hdata => ?_⟩
  have hsize : credential'.requiredHeaderSize ≤ pieces'.flatten.length := by
    rw [hdata]
    exact credential.requiredHeaderSize_le_length_packet cc credential' r _
  have hfirst : pieces'.flatten.head? = some 3 := by
    rw [hdata, credential.head?_packet]
  have hsecond : pieces'.flatten[1]? ≠ some credential'.kind := by
    rw [hdata, credential.getElem?_packet]
    exact fun h => hkind (Option.some.inj h)
  have hrejected := DecryptorV3.decrypted_kind cc hsize hfirst hsecond
  refine ⟨(DecryptorV3.run_eq cc credential' pieces').trans hrejected, ?_⟩
  rintro password rfl
  rw [Decryptor.run_eq, if_pos hfirst, hrejected]

def checksum (data : NSData) : UInt8 := data.foldl (· + ·) 0

/-- A cipher of bytes, with sums in place of the derived keys and the codes. -/
def xorCrypto : CommonCrypto where
  keyDerivationPBKDF password salt := List.replicate keySize (checksum (password ++ salt))
  hmac key data := List.replicate hmacSize (checksum (key ++ data))
  cryptorUpdate _ key _ data := data.map (key.headD 0 ^^^ ·)
  cryptorFinal _ _ _ _ := []
  length_key _ _ := List.length_replicate
  length_hmac _ _ := List.length_replicate
  update_nil _ _ _ := rfl
  update_prefix _ key _ data more := by
    rw [List.map_append]
    exact List.prefix_append _ _
  decrypt_encrypt key _ data _ _ := by
    have hbyte : ∀ byte : UInt8, key.headD 0 ^^^ (key.headD 0 ^^^ byte) = byte := fun byte => by
      rw [← UInt8.xor_assoc, UInt8.xor_self, UInt8.zero_xor]
    simp only [List.append_nil, List.map_map, Function.comp_def, hbyte, List.map_id']

def zeroRandomData : RandomData :=
  ⟨List.replicate 8 0, List.replicate 8 0, List.replicate 16 0, rfl, rfl, rfl⟩

def zeroKey : Key := ⟨List.replicate keySize 0, List.length_replicate⟩

theorem decryptor_rejects_kind_room :
    ∃ written, (EncryptorV3.machine xorCrypto).run
        ((Credential.keys zeroKey zeroKey).encryptor xorCrypto zeroRandomData) [[4], [5, 6]] =
          .ok written ∧
      ∀ pieces' : List NSData, pieces'.flatten = written →
        (DecryptorV3.machine xorCrypto).run { credential := .password "room" } pieces' =
            .error .invalidCredentialType ∧
          ∀ password, Credential.password "room" = .password password →
            (Decryptor.machine xorCrypto).run { password := password } pieces' =
              .error .invalidCredentialType :=
  decryptor_rejects_kind xorCrypto (.keys zeroKey zeroKey) (.password "room") zeroRandomData
    [[4], [5, 6]] (by decide)

theorem Decryptor.decrypt_eq (password : String) (data : NSData) :
    decrypt cc { password := password } data =
      (machine cc).run { password := password } [data] := rfl

theorem Decryptor.decrypt_packet (password : String) (r : RandomData) (body : NSData) :
    decrypt cc { password := password } ((Credential.password password).packet cc r body) =
      .ok (cc.crypt .decrypt (makeKey cc password r.encryptionSalt) r.iv body) := by
  rw [decrypt_eq, run_ok_iff, List.flatten_singleton]
  exact ⟨r, body, rfl, rfl⟩

theorem EncryptorV3.encrypt_withPassword (password : String) (r : RandomData) (data : NSData) :
    (EncryptorV3.withPassword cc password r.encryptionSalt r.hmacSalt r.iv).encrypt cc data =
      (Credential.password password).packet cc r
        (cc.crypt .encrypt (makeKey cc password r.encryptionSalt) r.iv data) := by
  have hrun := (Credential.password password).encryptor_run cc r [data]
  rw [List.flatten_singleton] at hrun
  exact Except.ok.inj hrun

theorem Decryptor.decrypt_encrypt (password : String) (r : RandomData) (data : NSData) :
    decrypt cc { password := password }
        ((EncryptorV3.withPassword cc password r.encryptionSalt r.hmacSalt r.iv).encrypt cc data) =
      .ok data := by
  rw [EncryptorV3.encrypt_withPassword, decrypt_packet]
  exact congrArg Except.ok (cc.crypt_crypt (cc.length_key _ _) r.length_iv data)

/-- The empty password is refused. -/
def Encryptor.init (password : String) (r : RandomData) : Option EncryptorV3 :=
  if password = "" then none
  else some (.withPassword cc password r.encryptionSalt r.hmacSalt r.iv)

/-- The package as it is used, with the random data of one encryption. -/
def v3 (r : RandomData) : RNCryptor where
  encrypt data password := (Encryptor.init cc password r).map (·.encrypt cc data)
  decrypt password data := (Decryptor.decrypt cc { password := password } data).toOption
  decrypt_encrypt h := by
    obtain ⟨encryptor, hinit, rfl⟩ := Option.map_eq_some_iff.mp h
    obtain ⟨-, hencryptor⟩ := Option.ite_none_left_eq_some.mp hinit
    obtain rfl := Option.some.inj hencryptor
    rw [Decryptor.decrypt_encrypt]
    rfl

theorem encryptText_eq_some {r : RandomData} {chatRoomId message encryptMessage : String} :
    ENcryption.encryptText (v3 cc r) chatRoomId message = some encryptMessage ↔
      chatRoomId ≠ "" ∧ base64EncodedString ((Credential.password chatRoomId).packet cc r
        (cc.crypt .encrypt (makeKey cc chatRoomId r.encryptionSalt) r.iv
          message.toUTF8.data.toList)) = encryptMessage := by
  unfold ENcryption.encryptText v3 Encryptor.init
  simp only [Option.map_map, Option.map_eq_some_iff, Option.ite_none_left_eq_some,
    Option.some.injEq, Function.comp_apply]
  constructor
  · rintro ⟨encryptor, ⟨hroom, rfl⟩, rfl⟩
    rw [EncryptorV3.encrypt_withPassword]
    exact ⟨hroom, rfl⟩
  · rintro ⟨hroom, rfl⟩
    exact ⟨_, ⟨hroom, rfl⟩, by rw [EncryptorV3.encrypt_withPassword]⟩

/-- The message is a packet of the room that holds this text, or no text at all. -/
def Packs (chatRoomId encryptMessage : String) (text : Option String) : Prop :=
  ∃ r body, base64Decoded encryptMessage =
      some ((Credential.password chatRoomId).packet cc r body) ∧
    String.fromUTF8? ⟨(cc.crypt .decrypt (makeKey cc chatRoomId r.encryptionSalt) r.iv body).toArray⟩ =
      text

theorem decryptText_of_packs {chatRoomId encryptMessage : String} {text : Option String}
    (r : RandomData) (h : Packs cc chatRoomId encryptMessage text) :
    ENcryption.decryptText (v3 cc r) chatRoomId encryptMessage = text := by
  obtain ⟨r', body, hdecoded, rfl⟩ := h
  have hdecrypted := Decryptor.decrypt_packet cc chatRoomId r' body
  unfold ENcryption.decryptText v3
  simp only [hdecoded, hdecrypted]
  rfl

theorem packs_of_decrypt {chatRoomId encryptMessage : String} {data result : NSData}
    (hdecoded : base64Decoded encryptMessage = some data)
    (h : Decryptor.decrypt cc { password := chatRoomId } data = .ok result) :
    ∃ text, Packs cc chatRoomId encryptMessage text := by
  rw [Decryptor.decrypt_eq, Decryptor.run_ok_iff, List.flatten_singleton] at h
  obtain ⟨r, body, rfl, -⟩ := h
  exact ⟨_, r, body, hdecoded, rfl⟩

/-- For every message, whoever has written it: what is read is the text that a packet of the
room holds, a trap where that is no text, and the empty text where there is no such packet. -/
theorem decryptText_iff (r : RandomData) (chatRoomId encryptMessage : String)
    (read : Option String) :
    ENcryption.decryptText (v3 cc r) chatRoomId encryptMessage = read ↔
      Packs cc chatRoomId encryptMessage read ∨
        read = some "" ∧ ∀ text, ¬ Packs cc chatRoomId encryptMessage text := by
  by_cases hpacks : ∃ text, Packs cc chatRoomId encryptMessage text
  · obtain ⟨text, htext⟩ := hpacks
    rw [decryptText_of_packs cc r htext]
    constructor
    · rintro rfl
      exact .inl htext
    · rintro (h | ⟨-, h⟩)
      · exact (decryptText_of_packs cc r htext).symm.trans (decryptText_of_packs cc r h)
      · exact absurd htext (h text)
  · have hnone : ENcryption.decryptText (v3 cc r) chatRoomId encryptMessage = some "" := by
      unfold ENcryption.decryptText v3
      cases hdecoded : base64Decoded encryptMessage with
      | none => rfl
      | some data =>
        cases hresult : Decryptor.decrypt cc { password := chatRoomId } data with
        | ok result => exact absurd (packs_of_decrypt cc hdecoded hresult) hpacks
        | error error => simp only [hresult, Except.toOption]
    rw [hnone]
    constructor
    · rintro rfl
      exact .inr ⟨rfl, not_exists.mp hpacks⟩
    · rintro (h | ⟨h, -⟩)
      · exact absurd ⟨read, h⟩ hpacks
      · exact h.symm

/-- The header does not depend on the password, and the code does. -/
theorem Decryptor.decrypt_other (password password' : String) (r : RandomData) (body : NSData)
    (hcode : cc.hmac (makeKey cc password r.hmacSalt) ((Credential.password password).header r ++ body) ≠
      cc.hmac (makeKey cc password' r.hmacSalt) ((Credential.password password).header r ++ body)) :
    decrypt cc { password := password' } ((Credential.password password).packet cc r body) =
      .error .hmacMismatch := by
  rw [decrypt_eq, run_eq, List.flatten_singleton, if_pos (Credential.head?_packet cc _ r body),
    Credential.packet, packet, List.append_assoc]
  refine (DecryptorV3.decrypted_header cc (.password password') r _).trans ?_
  rw [DecryptorEngineV3.decrypted]
  have hlength : (cc.hmac ((Credential.password password).hmacKey cc r)
      ((Credential.password password).header r ++ body)).length = hmacSize := cc.length_hmac _ _
  rw [rtake_of_length hlength, rdrop_of_length hlength]
  exact if_neg hcode

/-- For all texts and all random data: a text is encrypted unless its room has no id, and what
one member has encrypted is read by every member of the room, and as the empty text wherever
the code is a different one. -/
theorem decryptText_written (r r' : RandomData) (chatRoomId message : String) :
    let data := (Credential.password chatRoomId).header r ++
      cc.crypt .encrypt (makeKey cc chatRoomId r.encryptionSalt) r.iv message.toUTF8.data.toList
    (ENcryption.encryptText (v3 cc r) chatRoomId message = none ↔ chatRoomId = "") ∧
      ∀ encryptMessage, ENcryption.encryptText (v3 cc r) chatRoomId message = some encryptMessage →
        ENcryption.decryptText (v3 cc r') chatRoomId encryptMessage = some message ∧
        ∀ chatRoomId', cc.hmac (makeKey cc chatRoomId r.hmacSalt) data ≠
            cc.hmac (makeKey cc chatRoomId' r.hmacSalt) data →
          ENcryption.decryptText (v3 cc r') chatRoomId' encryptMessage = some "" := by
  constructor
  · rw [Option.eq_none_iff_forall_ne_some]
    constructor
    · intro hnone
      by_contra hroom
      exact hnone _ ((encryptText_eq_some cc).mpr ⟨hroom, rfl⟩)
    · intro hroom encryptMessage h
      exact ((encryptText_eq_some cc).mp h).1 hroom
  · intro encryptMessage h
    refine ⟨ENcryption.decryptText_encryptText (c := v3 cc r) h, ?_⟩
    intro chatRoomId' hcode
    have hrejected := Decryptor.decrypt_other cc chatRoomId chatRoomId' r _ hcode
    obtain ⟨-, rfl⟩ := (encryptText_eq_some cc).mp h
    unfold ENcryption.decryptText v3
    simp only [base64Decoded_encoded, hrejected, Except.toOption]

theorem decryptText_written_hello :
    ∃ encryptMessage, ENcryption.encryptText (v3 xorCrypto zeroRandomData) "alicebob" "hello" =
        some encryptMessage ∧
      ENcryption.decryptText (v3 xorCrypto zeroRandomData) "alicebob" encryptMessage =
        some "hello" ∧
      ENcryption.decryptText (v3 xorCrypto zeroRandomData) "aliceann" encryptMessage = some "" := by
  obtain ⟨hnone, hread⟩ :=
    decryptText_written xorCrypto zeroRandomData zeroRandomData "alicebob" "hello"
  obtain ⟨encryptMessage, h⟩ := Option.ne_none_iff_exists'.mp
    fun htrap => absurd (hnone.mp htrap) (by decide)
  obtain ⟨hread, hother⟩ := hread encryptMessage h
  exact ⟨encryptMessage, h, hread, hother "aliceann" (by decide +kernel)⟩

end LiChat.RNCryptor
