import LiChat.UserDownloads
import LiChat.MessageFormat

/-!
# Title and avatars of a chat

Each completion of the download of the members fills the title and loads the avatars of all
users it lists.  Beside a message stands the avatar that has been loaded for its sender.
-/

namespace LiChat
open FanIn

structure ChatTitle where
  withUsers : List FUser
  titleLabel : String
  subTitleLabel : String

inductive JSQAvatar (Image : Type)
  | placeholder
  | circular (image : Image)

variable {Image : Type} (uiImage : NSData → Option Image)

/-- The chat screen while the members are being downloaded.  `avatarImageDictionary` is nil at
first. -/
structure ChatAvatars (Image : Type) where
  title : ChatTitle
  avatarButton : Option Image
  avatarImageDictionary : Option (Uid → Option NSData)
  jsqAvatarDictionary : Uid → Option (JSQAvatar Image)

/-- The factory asserts that there is an image. -/
def jsqAvatar (avatarDictionary : Uid → Option NSData) (userId : Uid) :
    Option (JSQAvatar Image) :=
  match avatarDictionary userId with
  | some avatarImageData => (uiImage avatarImageData).map .circular
  | none => some .placeholder

namespace ChatAvatars

def createJSQAvatars (memberIds : List Uid) (s : ChatAvatars Image) :
    Option (ChatAvatars Image) :=
  match s.avatarImageDictionary with
  | none => some s
  | some avatarDictionary => do
    let jsqAvatarDictionary ← memberIds.foldlM (fun jsqAvatarDictionary userId => do
      let avatar ← jsqAvatar uiImage avatarDictionary userId
      some (Function.update jsqAvatarDictionary userId (some avatar))) s.jsqAvatarDictionary
    some { s with jsqAvatarDictionary := jsqAvatarDictionary }

def avatarImageFrom (memberIds : List Uid) (s : ChatAvatars Image) (fUser : FUser) :
    Option (ChatAvatars Image) :=
  if fUser.avatar ≠ "" then
    match base64Decoded fUser.avatar with
    | none => some s
    | some imageData =>
      let avatarImageDictionary := s.avatarImageDictionary.getD fun _ => none
      createJSQAvatars uiImage memberIds { s with
        avatarImageDictionary :=
          some (Function.update avatarImageDictionary fUser.objectId (some imageData)) }
  else some s

def getAvatarImages (showAvatars : Bool) (currentUser : FUser) (memberIds : List Uid)
    (s : ChatAvatars Image) : Option (ChatAvatars Image) :=
  if showAvatars then
    (currentUser :: s.title.withUsers).foldlM (avatarImageFrom uiImage memberIds) s
  else some s

/-- It traps when there is no other member, or when the avatar is no data. -/
def setUIForSingleChat (s : ChatAvatars Image) : Option (ChatAvatars Image) := do
  let withUser ← s.title.withUsers.head?
  let image ← imageFromData uiImage withUser.avatar
  some { s with
    avatarButton := image.or s.avatarButton
    title := { s.title with
      titleLabel := withUser.fullname
      subTitleLabel := if withUser.isOnline then "Online" else "Offline" } }

/-- The completion in `setCustomTitle`. -/
def gotUsers (showAvatars isGroup : Bool) (currentUser : FUser) (memberIds : List Uid)
    (s : ChatAvatars Image) (withUsers : List FUser) : Option (ChatAvatars Image) := do
  let s ← getAvatarImages uiImage showAvatars currentUser memberIds
    { s with title := { s.title with withUsers := withUsers } }
  if isGroup then some s else setUIForSingleChat uiImage s

/-- `viewDidLoad` -/
def opened (title : String) : ChatAvatars Image := ⟨⟨[], title, ""⟩, none, none, fun _ => none⟩

def setCustomTitle (showAvatars isGroup : Bool) (currentUser : FUser) (memberIds : List Uid)
    (s : ChatAvatars Image) (arrivals : List Arrival) : Option (ChatAvatars Image) := do
  let calls ← getUsersFromFirestore currentUser.objectId memberIds arrivals
  calls.foldlM (gotUsers uiImage showAvatars isGroup currentUser memberIds) s

def avatarImageDataForItemAt (s : ChatAvatars Image) (senderId : Uid) : JSQAvatar Image :=
  (s.jsqAvatarDictionary senderId).getD .placeholder

/-- The profile that opens; it traps when the sender is not among the users. -/
def didTapAvatarImageView (currentUser : FUser) (s : ChatAvatars Image) (senderId : Uid) :
    Option FUser :=
  if senderId = currentUser.objectId then some currentUser
  else s.title.withUsers.foldl
    (fun selectedUser user => if user.objectId = senderId then some user else selectedUser) none

end ChatAvatars

def HoldsImage (avatar : String) : Prop :=
  avatar = "" ∨ ∃ data, base64Decoded avatar = some data ∧ (uiImage data).isSome

def avatarData (avatar : String) : Option NSData :=
  if avatar = "" then none else base64Decoded avatar

def shownAvatar (avatar : String) : JSQAvatar Image :=
  ((avatarData avatar).bind uiImage).elim .placeholder .circular

theorem base64Decoded_isSome {uiImage : NSData → Option Image} {avatar : String}
    (h : HoldsImage uiImage avatar) : ∃ data, base64Decoded avatar = some data := by
  rcases h with rfl | ⟨data, hdata, -⟩
  · exact ⟨[], rfl⟩
  · exact ⟨data, hdata⟩

theorem uiImage_avatarData {uiImage : NSData → Option Image} {avatar : String}
    (h : HoldsImage uiImage avatar) {data : NSData} (hdata : avatarData avatar = some data) :
    ∃ image, uiImage data = some image := by
  rw [avatarData] at hdata
  split_ifs at hdata with hempty
  rcases h with h | ⟨data', hdata', himage⟩
  · exact absurd h hempty
  · rw [hdata] at hdata'
    obtain rfl := Option.some.inj hdata'
    exact Option.isSome_iff_exists.mp himage

namespace ChatAvatars

/-- The avatars of the users in `loaded` are shown, each as its text has it, and no others. -/
structure Shows (text : Uid → String) (memberIds : List Uid) (loaded : Set Uid)
    (s : ChatAvatars Image) : Prop where
  data : ∀ id ∈ loaded, s.avatarImageDictionary.bind (· id) = avatarData (text id)
  other : ∀ id ∉ loaded, s.avatarImageDictionary.bind (· id) = none
  member : ∀ id ∈ memberIds, s.avatarImageDataForItemAt id =
    ((s.avatarImageDictionary.bind (· id)).bind uiImage).elim .placeholder .circular
  notMember : ∀ id ∉ memberIds, s.jsqAvatarDictionary id = none

variable {uiImage} {text : Uid → String} {memberIds : List Uid} {loaded : Set Uid}
  {s : ChatAvatars Image}

theorem Shows.shown (h : Shows uiImage text memberIds loaded s) {id : Uid} (hmember : id ∈ memberIds)
    (hloaded : id ∈ loaded) : s.avatarImageDataForItemAt id = shownAvatar uiImage (text id) := by
  rw [h.member id hmember, h.data id hloaded, shownAvatar]

theorem Shows.placeholder (h : Shows uiImage text memberIds loaded s) {id : Uid}
    (hid : id ∉ memberIds ∨ id ∉ loaded) : s.avatarImageDataForItemAt id = .placeholder := by
  by_cases hmember : id ∈ memberIds
  · rw [h.member id hmember, h.other id (hid.resolve_left (not_not_intro hmember))]
    rfl
  · rw [avatarImageDataForItemAt, h.notMember id hmember]
    rfl

theorem Shows.of_opened (title : String) :
    Shows uiImage text memberIds ∅ (opened title : ChatAvatars Image) where
  data _ hid := absurd hid (Set.notMem_empty _)
  other _ _ := rfl
  member _ _ := rfl
  notMember _ _ := rfl

theorem jsqAvatar_eq {avatarDictionary : Uid → Option NSData}
    (h : ∀ id data, avatarDictionary id = some data → ∃ image, uiImage data = some image) (id : Uid) :
    jsqAvatar uiImage avatarDictionary id =
      some (((avatarDictionary id).bind uiImage).elim .placeholder .circular) := by
  rw [jsqAvatar]
  cases hdata : avatarDictionary id with
  | none => rfl
  | some data =>
    obtain ⟨image, himage⟩ := h id data hdata
    simp [himage]

theorem foldlM_jsqAvatar {avatar : Uid → JSQAvatar Image} (ids : List Uid)
    (jsqAvatarDictionary : Uid → Option (JSQAvatar Image)) :
    ∃ jsq, (ids.foldlM (fun jsqAvatarDictionary userId => do
        let avatar ← some (avatar userId)
        some (Function.update jsqAvatarDictionary userId (some avatar))) jsqAvatarDictionary) =
          some jsq ∧
      (∀ id ∈ ids, jsq id = some (avatar id)) ∧ ∀ id ∉ ids, jsq id = jsqAvatarDictionary id := by
  induction ids using List.reverseRecOn with
  | nil => exact ⟨jsqAvatarDictionary, rfl, by simp, by simp⟩
  | append_singleton ids userId ih =>
    obtain ⟨jsq, hjsq, hset, hrest⟩ := ih
    refine ⟨Function.update jsq userId (some (avatar userId)), ?_, fun id hid => ?_, fun id hid => ?_⟩
    · rw [List.foldlM_append, hjsq]
      rfl
    · by_cases hlast : id = userId
      · rw [hlast, Function.update_self]
      · have hid' : id ∈ ids := by simpa [hlast] using hid
        rw [Function.update_of_ne hlast, hset id hid']
    · obtain ⟨hid', hlast⟩ : id ∉ ids ∧ id ≠ userId := by simpa using hid
      rw [Function.update_of_ne hlast, hrest id hid']

theorem createJSQAvatars_spec {avatarDictionary : Uid → Option NSData}
    (hdictionary : s.avatarImageDictionary = some avatarDictionary)
    (himages : ∀ id data, avatarDictionary id = some data → ∃ image, uiImage data = some image)
    (hnotMember : ∀ id ∉ memberIds, s.jsqAvatarDictionary id = none) :
    ∃ s', createJSQAvatars uiImage memberIds s = some s' ∧ s'.title = s.title ∧
      s'.avatarImageDictionary = some avatarDictionary ∧
      (∀ id ∈ memberIds, s'.avatarImageDataForItemAt id =
        ((avatarDictionary id).bind uiImage).elim .placeholder .circular) ∧
      ∀ id ∉ memberIds, s'.jsqAvatarDictionary id = none := by
  obtain ⟨jsq, hjsq, hset, hrest⟩ := @foldlM_jsqAvatar Image
    (fun id => ((avatarDictionary id).bind uiImage).elim .placeholder .circular) memberIds
    s.jsqAvatarDictionary
  refine ⟨{ s with jsqAvatarDictionary := jsq }, ?_, rfl, hdictionary, fun id hid => ?_,
    fun id hid => ?_⟩
  · simp only [createJSQAvatars, hdictionary, jsqAvatar_eq himages, hjsq]
    rfl
  · simp [avatarImageDataForItemAt, hset id hid]
  · exact (hrest id hid).trans (hnotMember id hid)

theorem avatarImageFrom_spec (himages : ∀ id, HoldsImage uiImage (text id))
    (h : Shows uiImage text memberIds loaded s) {fUser : FUser}
    (htext : fUser.avatar = text fUser.objectId) :
    ∃ s', avatarImageFrom uiImage memberIds s fUser = some s' ∧ s'.title = s.title ∧
      Shows uiImage text memberIds (insert fUser.objectId loaded) s' := by
  by_cases hempty : avatarData (text fUser.objectId) = none
  · -- nothing is loaded, and nothing was
    have hbefore : s.avatarImageDictionary.bind (· fUser.objectId) = none := by
      by_cases hloaded : fUser.objectId ∈ loaded
      · rw [h.data _ hloaded, hempty]
      · exact h.other _ hloaded
    refine ⟨s, ?_, rfl, ?_, fun id hid => h.other id fun hl => hid (.inr hl), h.member, h.notMember⟩
    · obtain ⟨data, hdata⟩ := base64Decoded_isSome (himages fUser.objectId)
      have htextempty : text fUser.objectId = "" := by
        by_contra hne
        rw [avatarData, if_neg hne, hdata] at hempty
        cases hempty
      rw [avatarImageFrom, if_neg (not_not_intro (htext.trans htextempty))]
    · rintro id (rfl | hid)
      · rw [hbefore, hempty]
      · exact h.data id hid
  · obtain ⟨imageData, hdata⟩ := Option.ne_none_iff_exists'.mp hempty
    have hne : text fUser.objectId ≠ "" := by
      intro hempty'
      rw [avatarData, if_pos hempty'] at hdata
      cases hdata
    have hdecoded : base64Decoded fUser.avatar = some imageData := by
      rw [avatarData, if_neg hne] at hdata
      rw [htext, hdata]
    set avatarDictionary := s.avatarImageDictionary.getD fun _ => none with hdictionary
    have hbefore : ∀ id, avatarDictionary id = s.avatarImageDictionary.bind (· id) := by
      intro id
      rw [hdictionary]
      cases s.avatarImageDictionary <;> rfl
    set updated := Function.update avatarDictionary fUser.objectId (some imageData) with hupdated
    have hself : updated fUser.objectId = avatarData (text fUser.objectId) := by
      rw [hupdated, Function.update_self, hdata]
    have hrest : ∀ id, id ≠ fUser.objectId →
        updated id = s.avatarImageDictionary.bind (· id) := by
      intro id hid
      rw [hupdated, Function.update_of_ne hid, hbefore]
    have hloaded : ∀ id ∈ insert fUser.objectId loaded, updated id = avatarData (text id) := by
      intro id hid
      by_cases heq : id = fUser.objectId
      · rw [heq, hself]
      · rw [hrest id heq, h.data id (hid.resolve_left heq)]
    have hother : ∀ id ∉ insert fUser.objectId loaded, updated id = none := by
      intro id hid
      obtain ⟨heq, hid'⟩ := not_or.mp hid
      rw [hrest id heq, h.other id hid']
    have hdrawn : ∀ id data, updated id = some data → ∃ image, uiImage data = some image := by
      intro id data hid
      by_cases hmem : id ∈ insert fUser.objectId loaded
      · exact uiImage_avatarData (himages id) ((hloaded id hmem).symm.trans hid)
      · rw [hother id hmem] at hid
        cases hid
    -- all that is loaded are images, so the loop over the members does not trap
    obtain ⟨s', hs', htitle, hdictionary', hmember, hnotMember⟩ :=
      @createJSQAvatars_spec Image uiImage memberIds
        { s with avatarImageDictionary := some updated } updated rfl hdrawn h.notMember
    have hbind : ∀ id, s'.avatarImageDictionary.bind (· id) = updated id := by
      intro id
      rw [hdictionary', Option.bind_some]
    refine ⟨s', ?_, htitle, fun id hid => ?_, fun id hid => ?_, fun id hid => ?_, hnotMember⟩
    · rw [avatarImageFrom, if_pos (by rw [htext]; exact hne), hdecoded]
      exact hs'
    · rw [hbind, hloaded id hid]
    · rw [hbind, hother id hid]
    · rw [hbind, hmember id hid]

theorem foldlM_avatarImageFrom (himages : ∀ id, HoldsImage uiImage (text id)) (fUsers : List FUser)
    (htext : ∀ user ∈ fUsers, user.avatar = text user.objectId)
    (h : Shows uiImage text memberIds loaded s) :
    ∃ s', fUsers.foldlM (avatarImageFrom uiImage memberIds) s = some s' ∧ s'.title = s.title ∧
      Shows uiImage text memberIds (loaded ∪ {id | id ∈ fUsers.map FUser.objectId}) s' := by
  induction fUsers generalizing s loaded with
  | nil => exact ⟨s, rfl, rfl, by simpa using h⟩
  | cons user fUsers ih =>
    obtain ⟨s₁, hs₁, htitle₁, h₁⟩ := avatarImageFrom_spec himages h (htext user (by simp))
    obtain ⟨s₂, hs₂, htitle₂, h₂⟩ := ih (fun u hu => htext u (by simp [hu])) h₁
    refine ⟨s₂, ?_, htitle₂.trans htitle₁, ?_⟩
    · rw [List.foldlM_cons, hs₁]
      exact hs₂
    · convert h₂ using 1
      ext id
      simp only [Set.mem_union, Set.mem_insert_iff, Set.mem_ofPred_eq, List.map_cons, List.mem_cons]
      tauto

theorem getAvatarImages_spec {currentUser : FUser} (himages : ∀ id, HoldsImage uiImage (text id))
    (hown : currentUser.avatar = text currentUser.objectId)
    (htext : ∀ user ∈ s.title.withUsers, user.avatar = text user.objectId)
    (h : Shows uiImage text memberIds loaded s) (showAvatars : Bool) :
    ∃ s', getAvatarImages uiImage showAvatars currentUser memberIds s = some s' ∧
      s'.title = s.title ∧
      Shows uiImage text memberIds (loaded ∪ {id | showAvatars = true ∧
        (id = currentUser.objectId ∨ id ∈ s.title.withUsers.map FUser.objectId)}) s' := by
  cases showAvatars with
  | false => exact ⟨s, rfl, rfl, by simpa using h⟩
  | true =>
    obtain ⟨s', hs', htitle, h'⟩ := foldlM_avatarImageFrom himages
      (currentUser :: s.title.withUsers) (List.forall_mem_cons.mpr ⟨hown, htext⟩) h
    exact ⟨s', hs', htitle, by simpa using h'⟩

theorem gotUsers_spec {currentUser : FUser} (himages : ∀ id, HoldsImage uiImage (text id))
    (hown : currentUser.avatar = text currentUser.objectId) {withUsers : List FUser}
    (htext : ∀ user ∈ withUsers, user.avatar = text user.objectId)
    (h : Shows uiImage text memberIds loaded s) (showAvatars isGroup : Bool) :
    (gotUsers uiImage showAvatars isGroup currentUser memberIds s withUsers = none ∧
      ¬ (isGroup = true ∨ withUsers ≠ [])) ∨
    ∃ s', gotUsers uiImage showAvatars isGroup currentUser memberIds s withUsers = some s' ∧
      (isGroup = true ∨ withUsers ≠ []) ∧ s'.title.withUsers = withUsers ∧
      Shows uiImage text memberIds (loaded ∪ {id | showAvatars = true ∧
        (id = currentUser.objectId ∨ id ∈ withUsers.map FUser.objectId)}) s' := by
  have hlisted : Shows uiImage text memberIds loaded
      { s with title := { s.title with withUsers := withUsers } } :=
    ⟨h.data, h.other, h.member, h.notMember⟩
  obtain ⟨s₁, hs₁, htitle, h₁⟩ := getAvatarImages_spec himages hown htext hlisted showAvatars
  simp only [gotUsers, hs₁, Option.bind_eq_bind, Option.bind_some]
  cases isGroup with
  | true => exact .inr ⟨s₁, rfl, .inl rfl, by rw [htitle], h₁⟩
  | false =>
    cases withUsers with
    | nil =>
      refine .inl ⟨?_, by simp⟩
      simp [setUIForSingleChat, htitle]
    | cons withUser others =>
      obtain ⟨data, hdata⟩ := base64Decoded_isSome (himages withUser.objectId)
      rw [← htext withUser (by simp)] at hdata
      refine .inr ⟨{ s₁ with
        avatarButton := (uiImage data).or s₁.avatarButton
        title := { s₁.title with
          titleLabel := withUser.fullname
          subTitleLabel := if withUser.isOnline then "Online" else "Offline" } },
        ?_, .inr (by simp), by rw [htitle], h₁.data, h₁.other, h₁.member, h₁.notMember⟩
      simp [setUIForSingleChat, htitle, imageFromData, hdata]

theorem foldlM_gotUsers_spec {currentUser : FUser} (himages : ∀ id, HoldsImage uiImage (text id))
    (hown : currentUser.avatar = text currentUser.objectId) {calls : List (List FUser)}
    (htext : ∀ c ∈ calls, ∀ user ∈ c, user.avatar = text user.objectId)
    (h : Shows uiImage text memberIds loaded s) (showAvatars isGroup : Bool) :
    (calls.foldlM (gotUsers uiImage showAvatars isGroup currentUser memberIds) s = none ∧
      ¬ (isGroup = true ∨ ∀ c ∈ calls, c ≠ [])) ∨
    ∃ s', calls.foldlM (gotUsers uiImage showAvatars isGroup currentUser memberIds) s = some s' ∧
      (isGroup = true ∨ ∀ c ∈ calls, c ≠ []) ∧
      s'.title.withUsers = calls.getLast?.getD s.title.withUsers ∧
      Shows uiImage text memberIds (loaded ∪ {id | showAvatars = true ∧ ∃ c ∈ calls,
        (id = currentUser.objectId ∨ id ∈ c.map FUser.objectId)}) s' := by
  induction calls using List.reverseRecOn with
  | nil => exact .inr ⟨s, rfl, by simp, rfl, by simpa using h⟩
  | append_singleton calls c ih =>
    have htext' : ∀ c' ∈ calls, ∀ user ∈ c', user.avatar = text user.objectId :=
      fun c' hc' => htext c' (by simp [hc'])
    rw [List.foldlM_append]
    rcases ih htext' with ⟨hnone, hempty⟩ | ⟨s₁, hs₁, hsome₁, -, h₁⟩
    · left
      rw [hnone]
      refine ⟨rfl, fun hall => hempty (hall.imp_right fun hc c' hc' => hc c' (by simp [hc']))⟩
    · simp only [hs₁, Option.bind_eq_bind, Option.bind_some, List.foldlM_cons, List.foldlM_nil]
      rcases gotUsers_spec himages hown (htext c (by simp)) h₁ showAvatars isGroup with
        ⟨hnone, hempty⟩ | ⟨s₂, hs₂, hsome₂, hwith, h₂⟩
      · left
        rw [hnone]
        exact ⟨rfl, fun hall => hempty (hall.imp_right fun hc => hc c (by simp))⟩
      · right
        rw [hs₂]
        refine ⟨s₂, rfl, ?_, by simpa using hwith, ?_⟩
        · rcases hsome₁ with hgroup | hcalls
          · exact .inl hgroup
          · refine hsome₂.imp_right fun hc c' hc' => ?_
            rcases List.mem_append.mp hc' with hc' | hc'
            · exact hcalls c' hc'
            · rwa [List.mem_singleton.mp hc']
        · -- what the calls so far and the last one have loaded
          convert h₂ using 1
          ext id
          simp only [Set.mem_union, Set.mem_ofPred_eq, List.mem_append, List.mem_singleton,
            or_and_right, exists_or, exists_eq_left]
          rw [and_or_left, ← or_assoc]

theorem didTapAvatarImageView_spec (currentUser : FUser) (s : ChatAvatars Image) (senderId : Uid) :
    ((didTapAvatarImageView currentUser s senderId).isSome ↔
      senderId = currentUser.objectId ∨ senderId ∈ s.title.withUsers.map FUser.objectId) ∧
    ∀ user, didTapAvatarImageView currentUser s senderId = some user →
      user.objectId = senderId ∧ (user = currentUser ∨ user ∈ s.title.withUsers) := by
  rw [didTapAvatarImageView]
  by_cases hown : senderId = currentUser.objectId
  · simp only [hown]
    refine ⟨by simp, fun user huser => ?_⟩
    obtain rfl := Option.some.inj huser
    exact ⟨rfl, .inl rfl⟩
  · rw [if_neg hown, or_iff_right hown]
    induction s.title.withUsers using List.reverseRecOn with
    | nil => simp
    | append_singleton withUsers last ih =>
      rw [List.foldl_append, List.foldl_cons, List.foldl_nil]
      by_cases hlast : last.objectId = senderId
      · rw [if_pos hlast]
        refine ⟨by simp [hlast], fun user huser => ?_⟩
        obtain rfl := Option.some.inj huser
        exact ⟨hlast, .inr (by simp)⟩
      · rw [if_neg hlast, ih.1]
        refine ⟨by simp [Ne.symm hlast], fun user huser => ?_⟩
        exact (ih.2 user huser).imp_right (Or.imp_right fun hmem => by simp [hmem])

end ChatAvatars

def avatarText (data : Dictionary) : String := (FUser.field Value.asString "" data kAVATAR).getD ""

/-- The text of the avatar of a user; the current one has it on the device. -/
def profileAvatar (users : Users) (currentUser : FUser) (id : Uid) : String :=
  if id = currentUser.objectId then currentUser.avatar
  else ((users id).map fun d => avatarText d.1).getD ""

/-- The completion is called after the callbacks `front`: the next document is missing, or all
have arrived and none is. -/
def CompletesAt (users : Users) (ids : List Uid) (front rest : List Arrival) : Prop :=
  (∃ a post, rest = a :: post ∧ users a.userId = none) ∨
    rest = [] ∧ front ≠ [] ∧ front.length = ids.length ∧ ∀ a ∈ front, (users a.userId).isSome

def Completed (users : Users) (ids : List Uid) (seen : List Arrival) : Prop :=
  ∃ front rest, seen = front ++ rest ∧ CompletesAt users ids front rest

/-- The completion has been called after the document of `id`, another user. -/
def Listed (users : Users) (currentId : Uid) (ids : List Uid) (seen : List Arrival) (id : Uid) :
    Prop :=
  id ≠ currentId ∧ (users id).isSome ∧
    ∃ front rest, seen = front ++ rest ∧ CompletesAt users ids front rest ∧
      ∃ a ∈ front, a.userId = id

/-- No completion in a chat of two comes before another user. -/
def NoneAlone (users : Users) (currentId : Uid) (ids : List Uid) (seen : List Arrival) : Prop :=
  ∀ front rest, seen = front ++ rest → CompletesAt users ids front rest →
    ∃ a ∈ front, a.userId ≠ currentId ∧ (users a.userId).isSome

theorem avatar_of_ofDictionary {f : DateFormatter} {now : Date} {d : Dictionary} {user : FUser}
    (h : FUser.ofDictionary f now d = some user) : user.avatar = avatarText d := by
  -- the id, the dates, the email and the names come before the avatar
  iterate 7 obtain ⟨_, -, h⟩ := Option.bind_eq_some_iff.mp h
  obtain ⟨avatar, havatar, h⟩ := Option.bind_eq_some_iff.mp h
  iterate 8 obtain ⟨_, -, h⟩ := Option.bind_eq_some_iff.mp h
  obtain rfl := Option.some.inj h
  rw [avatarText, havatar, Option.getD_some]

section Seen

variable {users : Users} {ids : List Uid} {currentId : Uid} {arrivals seen : List Arrival}

theorem getUsersFromFirestore_seen (currentId : Uid) (h : Arrive users ids arrivals)
    (hseen : seen <+: arrivals) :
    getUsersFromFirestore currentId ids seen =
      some (completions ids.length ⟨[], 0⟩ (seen.map (answer users currentId))) := by
  have hlength : seen.length ≤ ids.length := by
    rw [← h.perm.length_eq, List.length_map]
    exact hseen.length_le
  exact callbacks_eq_completions UserDownload.gathering (answer users currentId)
    (fun v a ha hcount => gotDocument_spec h (hseen.subset ha) hcount)
    (by simpa [UserDownload.gathering] using hlength)

theorem mem_calls_iff (currentId : Uid) (h : Arrive users ids arrivals) (hseen : seen <+: arrivals)
    {c : List FUser} :
    c ∈ completions ids.length ⟨[], 0⟩ (seen.map (answer users currentId)) ↔
      ∃ front rest, seen = front ++ rest ∧ CompletesAt users ids front rest ∧
        c = found (front.map (answer users currentId)) := by
  have hlength : (seen.map (answer users currentId)).length ≤ ids.length := by
    rw [List.length_map, ← h.perm.length_eq, List.length_map]
    exact hseen.length_le
  rw [mem_completions_iff hlength]
  constructor
  · rintro (⟨pre, post, hsplit, rfl⟩ | ⟨hall, hne, hnone, rfl⟩)
    · obtain ⟨front, rest, rfl, rfl, hrest⟩ := List.map_eq_append_iff.mp hsplit
      obtain ⟨a, post', rfl, ha, -⟩ := List.map_eq_cons_iff.mp hrest
      exact ⟨front, a :: post', rfl, .inl ⟨a, post', rfl, answer_eq_none.mp ha⟩, rfl⟩
    · refine ⟨seen, [], by simp, .inr ⟨rfl, ?_, ?_, ?_⟩, rfl⟩
      · exact fun hnil => hne (by rw [hnil]; rfl)
      · simpa using hall
      · simpa [none_mem_answers, Option.isSome_iff_ne_none] using hnone
  · rintro ⟨front, rest, rfl, ⟨a, post, rfl, ha⟩ | ⟨rfl, hne, hall, hsome⟩, rfl⟩
    · exact .inl ⟨_, post.map (answer users currentId), by simp [answer_eq_none.mpr ha], rfl⟩
    · refine .inr ⟨by simpa using hall, by simpa using hne, ?_, by simp⟩
      simpa [none_mem_answers, Option.isSome_iff_ne_none] using hsome

theorem mem_found_front (h : Arrive users ids arrivals) {front rest : List Arrival}
    (hseen : front ++ rest <+: arrivals) {id : Uid} :
    id ∈ (found (front.map (answer users currentId))).map FUser.objectId ↔
      id ≠ currentId ∧ (users id).isSome ∧ ∃ a ∈ front, a.userId = id := by
  have hreadable : ∀ a ∈ front, ∀ d, users a.userId = some d → (a.user d.1).isSome :=
    fun a ha => h.readable a (hseen.subset (by simp [ha]))
  rw [map_objectId_found hreadable, existingOthers, List.mem_filter, List.mem_map]
  simp only [decide_eq_true_eq]
  tauto

theorem listed_iff (h : Arrive users ids arrivals) (hseen : seen <+: arrivals) {id : Uid} :
    Listed users currentId ids seen id ↔
      ∃ c ∈ completions ids.length ⟨[], 0⟩ (seen.map (answer users currentId)),
        id ∈ c.map FUser.objectId := by
  constructor
  · rintro ⟨hother, hsome, front, rest, rfl, hcompletes, ha⟩
    exact ⟨_, (mem_calls_iff currentId h hseen).mpr ⟨front, rest, rfl, hcompletes, rfl⟩,
      (mem_found_front h hseen).mpr ⟨hother, hsome, ha⟩⟩
  · rintro ⟨c, hc, hid⟩
    obtain ⟨front, rest, rfl, hcompletes, rfl⟩ := (mem_calls_iff currentId h hseen).mp hc
    obtain ⟨hother, hsome, ha⟩ := (mem_found_front h hseen).mp hid
    exact ⟨hother, hsome, front, rest, rfl, hcompletes, ha⟩

theorem completed_iff (currentId : Uid) (h : Arrive users ids arrivals) (hseen : seen <+: arrivals) :
    Completed users ids seen ↔
      completions ids.length ⟨[], 0⟩ (seen.map (answer users currentId)) ≠ [] := by
  constructor
  · rintro ⟨front, rest, hsplit, hcompletes⟩
    exact List.ne_nil_of_mem
      ((mem_calls_iff currentId h hseen).mpr ⟨front, rest, hsplit, hcompletes, rfl⟩)
  · intro hne
    obtain ⟨c, hc⟩ := List.exists_mem_of_ne_nil _ hne
    obtain ⟨front, rest, hsplit, hcompletes, -⟩ := (mem_calls_iff currentId h hseen).mp hc
    exact ⟨front, rest, hsplit, hcompletes⟩

theorem noneAlone_iff (h : Arrive users ids arrivals) (hseen : seen <+: arrivals) :
    NoneAlone users currentId ids seen ↔
      ∀ c ∈ completions ids.length ⟨[], 0⟩ (seen.map (answer users currentId)), c ≠ [] := by
  have hfound : ∀ front rest, seen = front ++ rest →
      (found (front.map (answer users currentId)) ≠ [] ↔
        ∃ a ∈ front, a.userId ≠ currentId ∧ (users a.userId).isSome) := by
    rintro front rest rfl
    have hsubset : front ⊆ arrivals := fun a ha => hseen.subset (by simp [ha])
    rw [Ne, found_answers_eq_nil h hsubset]
    simp [Option.isSome_iff_ne_none]
  constructor
  · intro hall c hc
    obtain ⟨front, rest, hsplit, hcompletes, rfl⟩ := (mem_calls_iff currentId h hseen).mp hc
    exact (hfound front rest hsplit).mpr (hall front rest hsplit hcompletes)
  · intro hall front rest hsplit hcompletes
    exact (hfound front rest hsplit).mp
      (hall _ ((mem_calls_iff currentId h hseen).mpr ⟨front, rest, hsplit, hcompletes, rfl⟩))

theorem avatar_of_mem_calls {currentUser : FUser} (h : Arrive users ids arrivals)
    (hseen : seen <+: arrivals) {c : List FUser}
    (hc : c ∈ completions ids.length ⟨[], 0⟩ (seen.map (answer users currentUser.objectId)))
    {user : FUser} (huser : user ∈ c) :
    user.avatar = profileAvatar users currentUser user.objectId := by
  obtain ⟨front, rest, rfl, -, rfl⟩ := (mem_calls_iff currentUser.objectId h hseen).mp hc
  obtain ⟨a, -, hother, d, hd, hread⟩ := mem_found_answers.mp huser
  rw [objectId_of_user hread, profileAvatar, if_neg hother, hd, Option.map_some, Option.getD_some,
    avatar_of_ofDictionary hread]

/-- In a group the title never traps on stored avatars, and in a chat of two only when no
other user arrives before a document is missing.  It keeps the users of the last completion. -/
theorem ChatAvatars.setCustomTitle_spec {currentUser : FUser} (hne : ids ≠ [])
    (h : Arrive users ids arrivals)
    (himages : ∀ id, HoldsImage uiImage (profileAvatar users currentUser id))
    (showAvatars isGroup : Bool) (title : String) {calls : List (List FUser)} {list : List FUser}
    (hcalls : getUsersFromFirestore currentUser.objectId ids arrivals = some calls)
    (hlast : calls.getLast? = some list) :
    let screen := setCustomTitle uiImage showAvatars isGroup currentUser ids (opened title) arrivals
    (screen.isSome ↔ isGroup = true ∨ PartnerFirst users currentUser.objectId arrivals) ∧
      ∀ s, screen = some s → s.title.withUsers = list := by
  intro screen
  have hanswers : arrivals.map (answer users currentUser.objectId) ≠ [] := by
    intro hnil
    have hperm := h.perm
    rw [List.map_eq_nil_iff.mp hnil] at hperm
    exact hne hperm.symm.eq_nil
  have hall : calls =
      completions ids.length ⟨[], 0⟩ (arrivals.map (answer users currentUser.objectId)) :=
    Option.some.inj (hcalls.symm.trans
      (getUsersFromFirestore_seen currentUser.objectId h (List.prefix_refl _)))
  have hscreen : screen = calls.foldlM (gotUsers uiImage showAvatars isGroup currentUser ids)
      (opened title) := by
    simp only [screen, setCustomTitle, hcalls, Option.bind_eq_bind, Option.bind_some]
  have hpartner : (∀ c ∈ calls, c ≠ []) ↔ PartnerFirst users currentUser.objectId arrivals := by
    have hlength : ids.length = (arrivals.map (answer users currentUser.objectId)).length := by
      rw [List.length_map, ← h.perm.length_eq, List.length_map]
    rw [hall, hlength, completions_ne_nil_iff hanswers, partnerFirst_iff h]
  have havatars : ∀ c ∈ calls, ∀ user ∈ c,
      user.avatar = profileAvatar users currentUser user.objectId := fun c hc user huser =>
    avatar_of_mem_calls h (List.prefix_refl _) (hall ▸ hc) huser
  rw [hscreen, ← hpartner]
  rcases foldlM_gotUsers_spec himages (by rw [profileAvatar, if_pos rfl]) havatars
      (Shows.of_opened title) showAvatars isGroup with
    ⟨hnone, hempty⟩ | ⟨s, hs, hsome, hwith, -⟩
  · rw [hnone]
    exact ⟨iff_of_false (by simp) hempty, fun s hs => absurd hs (by simp)⟩
  · rw [hs]
    refine ⟨iff_of_true rfl hsome, fun s' hs' => ?_⟩
    obtain rfl := Option.some.inj hs'
    rw [hwith, hlast, Option.getD_some]

end Seen

/-- For every set of missing documents and every order of the callbacks: the last call of
the completion lists exactly the existing users other than the current one exactly when no
document is missing or no other user arrives after the last missing one.  So does the
screen of blocked users, and so does the title of a chat whose users have images for
avatars; it traps in a chat of two unless the other user arrives before any document is
missing. -/
theorem users_downloaded_iff (users : Users) (currentUser : FUser) (ids : List Uid)
    (arrivals : List Arrival) (hne : ids ≠ []) (harrive : Arrive users ids arrivals) :
    ((∃ calls list, getUsersFromFirestore currentUser.objectId ids arrivals = some calls ∧
        calls.getLast? = some list ∧ ListsExisting users currentUser.objectId ids list) ↔
      MissingIsLast users currentUser.objectId arrivals) ∧
    (currentUser.blockedUsers = ids → ∀ blockedUserArray,
      ((∃ list, BlockedUsersViewController.loadUsers currentUser blockedUserArray arrivals = some list ∧
          ListsExisting users currentUser.objectId ids list) ↔
        MissingIsLast users currentUser.objectId arrivals)) ∧
    ((∀ id, HoldsImage uiImage (profileAvatar users currentUser id)) →
      ∀ (showAvatars isGroup : Bool) (title : String),
        ((∃ s, ChatAvatars.setCustomTitle uiImage showAvatars isGroup currentUser ids
            (ChatAvatars.opened title) arrivals = some s ∧
            ListsExisting users currentUser.objectId ids s.title.withUsers) ↔
          MissingIsLast users currentUser.objectId arrivals ∧
            (isGroup = true ∨ PartnerFirst users currentUser.objectId arrivals))) := by
  obtain ⟨calls, list, hcalls, hlast, hiff⟩ :=
    @getUsersFromFirestore_last users ids arrivals currentUser.objectId hne harrive
  refine ⟨?_, fun hblocked blockedUserArray => ?_, fun himages showAvatars isGroup title => ?_⟩
  · rw [← hiff, hcalls]
    simp [hlast]
  · have hpos : currentUser.blockedUsers.length > 0 := by
      rw [hblocked]
      exact List.length_pos_iff.mpr hne
    have hload : BlockedUsersViewController.loadUsers currentUser blockedUserArray arrivals =
        some list := by
      rw [BlockedUsersViewController.loadUsers, if_pos hpos, hblocked, hcalls, Option.bind_eq_bind,
        Option.bind_some, foldl_last, hlast, Option.getD_some]
    rw [← hiff, hload]
    simp
  · obtain ⟨hsome, hwith⟩ := ChatAvatars.setCustomTitle_spec uiImage hne harrive himages showAvatars
      isGroup title hcalls hlast
    rw [← hiff, ← hsome]
    constructor
    · rintro ⟨s, hs, hlists⟩
      rw [hwith s hs] at hlists
      exact ⟨hlists, by rw [hs]; rfl⟩
    · rintro ⟨hlists, hscreen⟩
      obtain ⟨s, hs⟩ := Option.isSome_iff_exists.mp hscreen
      exact ⟨s, hs, by rwa [hwith s hs]⟩

theorem holdsImage_usersNamed (named : List Uid) {currentUser : FUser}
    (hown : currentUser.avatar = "") (id : Uid) :
    HoldsImage uiImage (profileAvatar (usersNamed named) currentUser id) := by
  left
  rw [profileAvatar, usersNamed]
  split_ifs
  · exact hown
  · rfl
  · rfl

/-- The missing document comes last: the list of blocked users and the title of a group have
the two others. -/
theorem users_downloaded_missing_last :
    MissingIsLast (usersNamed ["bea", "carl"]) "ann"
        (arrivalsOf (usersNamed ["bea", "carl"]) ["carl", "bea", "dan"]) ∧
      (∃ list, BlockedUsersViewController.loadUsers annBlocksThree []
          (arrivalsOf (usersNamed ["bea", "carl"]) ["carl", "bea", "dan"]) = some list ∧
        ListsExisting (usersNamed ["bea", "carl"]) "ann" ["bea", "carl", "dan"] list) ∧
      ∃ s, ChatAvatars.setCustomTitle some true true annBlocksThree ["bea", "carl", "dan"]
          (ChatAvatars.opened "Trip")
          (arrivalsOf (usersNamed ["bea", "carl"]) ["carl", "bea", "dan"]) = some s ∧
        ListsExisting (usersNamed ["bea", "carl"]) "ann" ["bea", "carl", "dan"] s.title.withUsers := by
  have hlast : MissingIsLast (usersNamed ["bea", "carl"]) "ann"
      (arrivalsOf (usersNamed ["bea", "carl"]) ["carl", "bea", "dan"]) :=
    .inr ⟨arrivalsOf (usersNamed ["bea", "carl"]) ["carl", "bea"], _, [], rfl, rfl, by simp⟩
  have h := users_downloaded_iff some (usersNamed ["bea", "carl"]) annBlocksThree
    ["bea", "carl", "dan"] (arrivalsOf (usersNamed ["bea", "carl"]) ["carl", "bea", "dan"])
    (by decide) (arrive_arrivalsOf (by decide))
  exact ⟨hlast, (h.2.1 rfl []).mpr hlast,
    (h.2.2 (holdsImage_usersNamed some _ rfl) true true "Trip").mpr ⟨hlast, .inl rfl⟩⟩

/-- The missing document is the first to arrive: nobody is listed, neither as blocked nor as
a member of a group. -/
theorem users_downloaded_fails_missing_first :
    Arrive (usersNamed ["bea", "carl"]) ["bea", "carl", "dan"]
        (arrivalsOf (usersNamed ["bea", "carl"]) ["dan", "bea", "carl"]) ∧
      getUsersFromFirestore "ann" ["bea", "carl", "dan"]
        (arrivalsOf (usersNamed ["bea", "carl"]) ["dan", "bea", "carl"]) = some [[]] ∧
      BlockedUsersViewController.loadUsers annBlocksThree []
        (arrivalsOf (usersNamed ["bea", "carl"]) ["dan", "bea", "carl"]) = some [] ∧
      ¬ ListsExisting (usersNamed ["bea", "carl"]) "ann" ["bea", "carl", "dan"] [] ∧
      (ChatAvatars.setCustomTitle some true true annBlocksThree ["bea", "carl", "dan"]
        (ChatAvatars.opened "Trip")
        (arrivalsOf (usersNamed ["bea", "carl"]) ["dan", "bea", "carl"])).map
          (fun s => (s.title.titleLabel, s.title.withUsers)) = some ("Trip", []) := by
  refine ⟨arrive_arrivalsOf (by decide), rfl, rfl, ?_, rfl⟩
  rintro ⟨hperm, -⟩
  have hexisting : existingOthers (usersNamed ["bea", "carl"]) "ann" ["bea", "carl", "dan"] =
      ["bea", "carl"] := rfl
  rw [hexisting] at hperm
  cases hperm.symm.eq_nil

/-- The sender's avatar is loaded: it is the current user and the completion has been called, or
it is a user whom the completion has listed. -/
def HasAvatar (users : Users) (currentId : Uid) (ids : List Uid) (seen : List Arrival) (id : Uid) :
    Prop :=
  id ∈ ids ∧ (id = currentId ∧ Completed users ids seen ∨ Listed users currentId ids seen id)

/-- For every set of missing documents, every order of the callbacks and every moment between
them: the screen has trapped only in a chat of two where a document was missing before the other
user came, the avatar beside a message is the sender's own once it is loaded and the placeholder
until then, and a tap on it opens the profile of the sender, or traps when the sender has not
been listed. -/
theorem avatars_while_downloading (users : Users) (currentUser : FUser) (ids : List Uid)
    (arrivals seen : List Arrival) (title : String) (showAvatars isGroup : Bool)
    (harrive : Arrive users ids arrivals) (hseen : seen <+: arrivals)
    (himages : ∀ id, HoldsImage uiImage (profileAvatar users currentUser id)) :
    let screen := ChatAvatars.setCustomTitle uiImage showAvatars isGroup currentUser ids
      (ChatAvatars.opened title) seen
    (screen.isSome ↔ isGroup = true ∨ NoneAlone users currentUser.objectId ids seen) ∧
    ∀ s, screen = some s → ∀ senderId,
      (showAvatars = true ∧ HasAvatar users currentUser.objectId ids seen senderId →
        s.avatarImageDataForItemAt senderId =
          shownAvatar uiImage (profileAvatar users currentUser senderId)) ∧
      (¬ (showAvatars = true ∧ HasAvatar users currentUser.objectId ids seen senderId) →
        s.avatarImageDataForItemAt senderId = .placeholder) ∧
      ((ChatAvatars.didTapAvatarImageView currentUser s senderId).isSome ↔
        senderId = currentUser.objectId ∨ Listed users currentUser.objectId ids seen senderId) ∧
      ∀ user, ChatAvatars.didTapAvatarImageView currentUser s senderId = some user →
        user.objectId = senderId ∧ user.avatar = profileAvatar users currentUser senderId := by
  intro screen
  have hown : currentUser.avatar = profileAvatar users currentUser currentUser.objectId := by
    rw [profileAvatar, if_pos rfl]
  have hlength : (seen.map (answer users currentUser.objectId)).length ≤ ids.length := by
    rw [List.length_map, ← harrive.perm.length_eq, List.length_map]
    exact hseen.length_le
  set calls := completions ids.length ⟨[], 0⟩ (seen.map (answer users currentUser.objectId))
    with hcalls
  have hscreen : screen = calls.foldlM
      (ChatAvatars.gotUsers uiImage showAvatars isGroup currentUser ids)
      (ChatAvatars.opened title) := by
    simp only [screen, ChatAvatars.setCustomTitle,
      getUsersFromFirestore_seen currentUser.objectId harrive hseen, Option.bind_eq_bind,
      Option.bind_some]
    rfl
  rw [hscreen, noneAlone_iff harrive hseen]
  rcases ChatAvatars.foldlM_gotUsers_spec himages hown
      (fun c hc user huser => avatar_of_mem_calls harrive hseen hc huser)
      (ChatAvatars.Shows.of_opened title) showAvatars isGroup with
    ⟨hnone, hempty⟩ | ⟨s, hs, hsome, hwith, hshows⟩
  · refine ⟨?_, fun s hs => absurd (hnone.symm.trans hs) (by simp)⟩
    rw [hnone]
    exact iff_of_false (by simp) hempty
  refine ⟨?_, fun s' hs' senderId => ?_⟩
  · rw [hs]
    exact iff_of_true rfl hsome
  obtain rfl := Option.some.inj (hs.symm.trans hs')
  -- what a completion has listed is listed by the last one
  have hlisted : senderId ∈ s.title.withUsers.map FUser.objectId ↔
      Listed users currentUser.objectId ids seen senderId := by
    rw [listed_iff harrive hseen, hwith]
    cases hlast : calls.getLast? with
    | none =>
      have hnil : calls = [] := List.getLast?_eq_none_iff.mp hlast
      simp [← hcalls, hnil, ChatAvatars.opened]
    | some list =>
      simp only [Option.getD_some, List.mem_map, mem_last_completion hlength hlast]
      constructor
      · rintro ⟨user, ⟨c, hc, huser⟩, rfl⟩
        exact ⟨c, hc, user, huser, rfl⟩
      · rintro ⟨c, hc, user, huser, rfl⟩
        exact ⟨user, ⟨c, hc, huser⟩, rfl⟩
  have hloaded : senderId ∈ (∅ ∪ {id | showAvatars = true ∧ ∃ c ∈ calls,
      (id = currentUser.objectId ∨ id ∈ c.map FUser.objectId)} : Set Uid) ↔ showAvatars = true ∧
        (senderId = currentUser.objectId ∧ Completed users ids seen ∨
          Listed users currentUser.objectId ids seen senderId) := by
    rw [listed_iff harrive hseen, completed_iff currentUser.objectId harrive hseen]
    rw [Set.empty_union, Set.mem_ofPred_eq, and_congr_right_iff]
    intro _
    constructor
    · rintro ⟨c, hc, hown' | hid⟩
      · exact .inl ⟨hown', List.ne_nil_of_mem hc⟩
      · exact .inr ⟨c, hc, hid⟩
    · rintro (⟨hown', hne⟩ | ⟨c, hc, hid⟩)
      · obtain ⟨c, hc⟩ := List.exists_mem_of_ne_nil calls hne
        exact ⟨c, hc, .inl hown'⟩
      · exact ⟨c, hc, .inr hid⟩
  obtain ⟨htap, hopened⟩ := ChatAvatars.didTapAvatarImageView_spec currentUser s senderId
  refine ⟨?_, ?_, by rw [htap, hlisted], fun user huser => ?_⟩
  · rintro ⟨hshow, hmember, hhas⟩
    exact hshows.shown hmember (hloaded.mpr ⟨hshow, hhas⟩)
  · intro hnot
    refine hshows.placeholder ?_
    by_contra hall
    obtain ⟨hmember, hmem⟩ := not_or.mp hall
    obtain ⟨hshow, hhas⟩ := hloaded.mp (not_not.mp hmem)
    exact hnot ⟨hshow, not_not.mp hmember, hhas⟩
  · obtain ⟨rfl, rfl | hmem⟩ := hopened user huser
    · exact ⟨rfl, hown⟩
    · refine ⟨rfl, ?_⟩
      rw [hwith] at hmem
      cases hlast : calls.getLast? with
      | none =>
        rw [hlast] at hmem
        cases hmem
      | some list =>
        rw [hlast] at hmem
        exact avatar_of_mem_calls harrive hseen (List.mem_of_getLast? hlast) hmem

def picturedProfile (u : Uid) : Profile u :=
  ⟨Dictionary.ofList [(kOBJECTID, .string u), (kAVATAR, .string "QQ==")], rfl⟩

def picturedUsers (ids : List Uid) : Users :=
  fun u => if u ∈ ids then some (picturedProfile u) else none

theorem arrive_picturedUsers {named ids order : List Uid} (h : order.Perm ids) :
    Arrive (picturedUsers named) ids (arrivalsOf (picturedUsers named) order) where
  perm := by simpa [arrivalsOf, Function.comp_def] using h
  snapshot a ha := by
    obtain ⟨id, -, rfl⟩ := List.mem_map.mp ha
    rfl
  readable a ha d hd := by
    obtain ⟨id, -, rfl⟩ := List.mem_map.mp ha
    simp only [picturedUsers, Option.ite_none_right_eq_some] at hd
    obtain rfl := Option.some.inj hd.2
    rfl

/-- Carl's document is missing, and Dan's has not come yet: a message of Bea has her avatar, and
a tap on a message of Dan traps. -/
theorem avatars_while_downloading_missing :
    ∃ s, ChatAvatars.setCustomTitle some true true annBlocksThree ["ann", "bea", "carl", "dan"]
        (ChatAvatars.opened "Trip")
        (arrivalsOf (picturedUsers ["ann", "bea", "dan"]) ["ann", "bea", "carl"]) = some s ∧
      s.avatarImageDataForItemAt "bea" = .circular [65] ∧
      ¬ (ChatAvatars.didTapAvatarImageView annBlocksThree s "dan").isSome := by
  set users := picturedUsers ["ann", "bea", "dan"] with husers
  have himages : ∀ id, HoldsImage some (profileAvatar users annBlocksThree id) := by
    intro id
    rw [profileAvatar, husers, picturedUsers]
    split_ifs
    · exact .inl rfl
    · have htext : avatarText (picturedProfile id).1 = "QQ==" := rfl
      refine .inr ⟨[65], ?_, rfl⟩
      rw [Option.map_some, Option.getD_some, htext]
      decide
    · exact .inl rfl
  have harrive : Arrive users ["ann", "bea", "carl", "dan"]
      (arrivalsOf users ["ann", "bea", "carl", "dan"]) := arrive_picturedUsers (List.Perm.refl _)
  obtain ⟨hsome, hshown⟩ := avatars_while_downloading some users annBlocksThree
    ["ann", "bea", "carl", "dan"] _ (arrivalsOf users ["ann", "bea", "carl"]) "Trip" true true
    harrive ⟨arrivalsOf users ["dan"], rfl⟩ himages
  obtain ⟨s, hs⟩ := Option.isSome_iff_exists.mp (hsome.mpr (.inl rfl))
  refine ⟨s, hs, ?_, ?_⟩
  · have hlisted : Listed users "ann" ["ann", "bea", "carl", "dan"]
        (arrivalsOf users ["ann", "bea", "carl"]) "bea" :=
      ⟨by decide, rfl, arrivalsOf users ["ann", "bea"], _, rfl, .inl ⟨_, [], rfl, rfl⟩, _,
        .tail _ (.head _), rfl⟩
    refine ((hshown s hs "bea").1 ⟨rfl, by decide, .inr hlisted⟩).trans ?_
    rw [shownAvatar]
    have hdata : avatarData (profileAvatar users annBlocksThree "bea") = some [65] := by decide
    rw [hdata]
    rfl
  · rw [(hshown s hs "dan").2.2.1]
    rintro (hann | ⟨-, -, front, rest, hsplit, -, a, ha, hid⟩)
    · exact absurd hann (by decide)
    · have hmem : a ∈ arrivalsOf users ["ann", "bea", "carl"] := by
        rw [hsplit]
        exact List.mem_append_left _ ha
      obtain ⟨id, hid', rfl⟩ := List.mem_map.mp hmem
      subst hid
      exact absurd hid' (by decide)

end LiChat
