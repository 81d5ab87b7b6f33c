import LiChat.ChatSend
import LiChat.DateFormat
import LiChat.General.Histories

/-!
# Media messages and their local cache

An upload names its file in the Storage after its second; a download caches the file
under a name that it cuts out of the link.
-/

namespace LiChat
open Histories

/-- The link of a stored file.  The query carries the token and has no percent sign. -/
structure DownloadURL where
  path : String
  token : String
  noPercent : '%' ∉ token.toList
  deriving DecidableEq

/-- Every slash of the path is written %2F. -/
def percentEncoded (path : String) : String :=
  String.ofList (path.toList.flatMap fun c => if c = '/' then ['%', '2', 'F'] else [c])

def DownloadURL.absoluteString (storagePrefix : String) (url : DownloadURL) : String :=
  storagePrefix ++ percentEncoded url.path ++ "?alt=media&token=" ++ url.token

/-- `components(separatedBy:)` for a single character. -/
def components (s : String) (separator : Char) : List String :=
  (s.toList.splitOn separator).map String.ofList

/-- The name under which a download looks for its file on the device. -/
def mediaFileName (mediaUrl : String) : String :=
  (components ((components mediaUrl '%').getLastD "") '?').headD ""

inductive MediaKind where
  | image
  | video
  | audio
  deriving DecidableEq, Repr

def storageFileName (folder fileExtension : String) (currentId : Uid) (chatRoomId dateString : String) :
    String :=
  folder ++ currentId ++ "/" ++ chatRoomId ++ "/" ++ dateString ++ fileExtension

def photoFileName : Uid → String → String → String := storageFileName "PictureMessages/" ".jpg"

def videoFileName : Uid → String → String → String := storageFileName "VideoMessages/" ".mov"

def audioFileName : Uid → String → String → String := storageFileName "AudioMessages/" ".m4a"

namespace MediaKind

def folder : MediaKind → String
  | image => "PictureMessages/"
  | video => "VideoMessages/"
  | audio => "AudioMessages/"

def fileExtension : MediaKind → String
  | image => ".jpg"
  | video => ".mov"
  | audio => ".m4a"

def fileName : MediaKind → Uid → String → String → String
  | image => photoFileName
  | video => videoFileName
  | audio => audioFileName

theorem fileName_eq (kind : MediaKind) (currentId : Uid) (chatRoomId dateString : String) :
    kind.fileName currentId chatRoomId dateString =
      kind.folder ++ currentId ++ "/" ++ chatRoomId ++ "/" ++ dateString ++ kind.fileExtension := by
  cases kind <;> rfl

end MediaKind

/-- An upload, by any user to any room, on a device with its own clock, and the token of
its link. -/
structure MediaUpload where
  kind : MediaKind
  currentId : Uid
  chatRoomId : String
  formatter : DateFormatter
  date : Date
  data : NSData
  token : String
  noPercent : '%' ∉ token.toList

/-- What the Storage has at each path. -/
abbrev Storage := String → Option NSData

namespace MediaUpload

def dateString (u : MediaUpload) : String := u.formatter.string u.date

def path (u : MediaUpload) : String := u.kind.fileName u.currentId u.chatRoomId u.dateString

/-- `putData` -/
def put (u : MediaUpload) (storage : Storage) : Storage :=
  Function.update storage u.path (some u.data)

def link (u : MediaUpload) : DownloadURL := ⟨u.path, u.token, u.noPercent⟩

end MediaUpload

/-- The uploads one after the other, from an empty Storage. -/
def stored (uploads : List MediaUpload) : Storage :=
  uploads.foldl (fun storage u => u.put storage) fun _ => none

abbrev DocumentsDirectory := String → Option NSData

/-- What the three downloads have in common: a file of that name is taken as it is;
otherwise the data is fetched and kept.  The result is the content of the file that the
completion receives. -/
def download (storagePrefix : String) (storage : Storage) (url : DownloadURL)
    (documents : DocumentsDirectory) : Option NSData × DocumentsDirectory :=
  let fileName := mediaFileName (url.absoluteString storagePrefix)
  match documents fileName with
  | some contentsOfFile => (some contentsOfFile, documents)
  | none =>
    match storage url.path with
    | some data => (some data, Function.update documents fileName (some data))
    | none => (none, documents)

abbrev downloadImage := download

abbrev downloadVideo := download

abbrev downloadAudio := download

def MediaKind.download : MediaKind → String → Storage → DownloadURL → DocumentsDirectory →
    Option NSData × DocumentsDirectory
  | image => downloadImage
  | video => downloadVideo
  | audio => downloadAudio

/-- Downloads of the links of the given uploads, one after the other on one device. -/
def deliveries (storagePrefix : String) (storage : Storage) :
    List MediaUpload → DocumentsDirectory → List (Option NSData)
  | [], _ => []
  | u :: downloads, documents =>
    let (data, documents) := u.kind.download storagePrefix storage u.link documents
    data :: deliveries storagePrefix storage downloads documents

theorem percentEncoded_append (s t : String) :
    percentEncoded (s ++ t) = percentEncoded s ++ percentEncoded t := by
  simp [percentEncoded]

theorem percentEncoded_of_no_slash {s : String} (h : '/' ∉ s.toList) : percentEncoded s = s := by
  have hchars : s.toList.flatMap (fun c => if c = '/' then ['%', '2', 'F'] else [c]) =
      s.toList.flatMap fun c => [c] := by
    apply List.flatMap_congr
    intro c hc
    rw [if_neg]
    rintro rfl
    exact h hc
  rw [percentEncoded, hchars]
  simp

theorem not_mem_dateString (u : MediaUpload) {c : Char} (h : c.isDigit = false) :
    c ∉ u.dateString.toList := by
  intro hc
  have hdigit := (isDateString_string u.formatter u.date).2 c hc
  rw [h] at hdigit
  exact absurd hdigit (by decide)

theorem components_getLastD {l r : List Char} {c : Char} (hr : c ∉ r) :
    (components (String.ofList (l ++ c :: r)) c).getLastD "" = String.ofList r := by
  rw [components, String.toList_ofList, List.splitOn_append_cons_self, List.splitOn_eq_singleton hr]
  simp

theorem components_headD {l r : List Char} {c : Char} (hl : c ∉ l) :
    (components (String.ofList (l ++ c :: r)) c).headD "" = String.ofList l := by
  rw [components, String.toList_ofList, List.splitOn_append_cons_self_of_not_mem hl]
  rfl

namespace MediaUpload

def lastComponent (u : MediaUpload) : String := u.dateString ++ u.kind.fileExtension

theorem path_eq (u : MediaUpload) :
    u.path = (u.kind.folder ++ u.currentId ++ "/" ++ u.chatRoomId) ++ "/" ++ u.lastComponent := by
  rw [path, MediaKind.fileName_eq, lastComponent]
  simp only [String.append_assoc]

theorem not_mem_lastComponent (u : MediaUpload) {c : Char} (h : c.isDigit = false)
    (hext : ∀ kind : MediaKind, c ∉ kind.fileExtension.toList) : c ∉ u.lastComponent.toList := by
  rw [lastComponent, String.toList_append, List.mem_append, not_or]
  exact ⟨not_mem_dateString u h, hext u.kind⟩

theorem percentEncoded_path (u : MediaUpload) : percentEncoded u.path =
    percentEncoded (u.kind.folder ++ u.currentId ++ "/" ++ u.chatRoomId) ++ "%2F" ++
      u.lastComponent := by
  have hslash : '/' ∉ u.lastComponent.toList :=
    not_mem_lastComponent u (by decide) (by intro kind; cases kind <;> decide)
  rw [path_eq, percentEncoded_append, percentEncoded_append, percentEncoded_of_no_slash hslash]
  rfl

theorem mediaFileName_link (storagePrefix : String) (u : MediaUpload) :
    mediaFileName (u.link.absoluteString storagePrefix) = "2F" ++ u.lastComponent := by
  have hlink : u.link.absoluteString storagePrefix = String.ofList
      ((storagePrefix ++ percentEncoded
          (u.kind.folder ++ u.currentId ++ "/" ++ u.chatRoomId)).toList ++
        '%' :: (("2F" ++ u.lastComponent).toList ++ '?' :: ("alt=media&token=" ++ u.token).toList)) := by
    rw [DownloadURL.absoluteString, link, percentEncoded_path, ← String.toList_inj]
    simp
  have hname : ∀ c : Char, c.isDigit = false → c ≠ 'F' →
      (∀ kind : MediaKind, c ∉ kind.fileExtension.toList) → c ∉ ("2F" ++ u.lastComponent).toList := by
    intro c hc hF hext
    rw [String.toList_append, List.mem_append, not_or]
    refine ⟨?_, not_mem_lastComponent u hc hext⟩
    simp only [String.reduceToList, List.mem_cons, List.not_mem_nil, or_false, not_or]
    refine ⟨?_, hF⟩
    rintro rfl
    exact absurd hc (by decide)
  have hpercent : '%' ∉ ("2F" ++ u.lastComponent).toList ++
      '?' :: ("alt=media&token=" ++ u.token).toList := by
    rw [List.mem_append, not_or]
    refine ⟨hname '%' (by decide) (by decide) (by intro kind; cases kind <;> decide), ?_⟩
    have htoken := u.noPercent
    simp [htoken]
  rw [mediaFileName, hlink, components_getLastD hpercent,
    components_headD (hname '?' (by decide) (by decide) (by intro kind; cases kind <;> decide)),
    String.ofList_toList]

theorem lastComponent_inj {u v : MediaUpload} :
    u.lastComponent = v.lastComponent ↔ u.kind = v.kind ∧ u.dateString = v.dateString := by
  constructor
  · intro h
    have hlist := congrArg String.toList h
    simp only [lastComponent, String.toList_append] at hlist
    obtain ⟨hdate, hext⟩ := List.append_inj hlist
      ((isDateString_string u.formatter u.date).1.trans (isDateString_string v.formatter v.date).1.symm)
    refine ⟨?_, String.toList_inj.mp hdate⟩
    revert hext
    cases u.kind <;> cases v.kind <;> decide
  · rintro ⟨hkind, hdate⟩
    rw [lastComponent, lastComponent, hkind, hdate]

theorem mediaFileName_eq_iff (storagePrefix : String) {u v : MediaUpload} :
    mediaFileName (u.link.absoluteString storagePrefix) =
        mediaFileName (v.link.absoluteString storagePrefix) ↔
      u.kind = v.kind ∧ u.dateString = v.dateString := by
  rw [mediaFileName_link, mediaFileName_link, String.append_right_inj, lastComponent_inj]

theorem lastComponent_of_path {u v : MediaUpload} (h : u.path = v.path) :
    u.lastComponent = v.lastComponent := by
  have hlength : ∀ w : MediaUpload, w.lastComponent.toList.length = 18 := by
    intro w
    have hdate := (isDateString_string w.formatter w.date).1
    rw [lastComponent, String.toList_append, List.length_append]
    cases w.kind <;> simp [dateString, MediaKind.fileExtension, hdate]
  have hlist := congrArg String.toList h
  simp only [path_eq, String.toList_append] at hlist
  exact String.toList_inj.mp
    (List.append_inj' hlist ((hlength u).trans (hlength v).symm)).2

end MediaUpload

theorem stored_eq_latest (uploads : List MediaUpload) (path : String) :
    stored uploads path =
      (latest (fun u : MediaUpload => u.path = path) uploads).map MediaUpload.data := by
  induction uploads using List.reverseRecOn with
  | nil => rfl
  | append_singleton uploads u ih =>
    rw [latest_concat, stored, List.foldl_append]
    show Function.update (stored uploads) u.path (some u.data) path = _
    by_cases h : u.path = path
    · subst h
      rw [Function.update_self, if_pos (by simp)]
      rfl
    · rw [Function.update_of_ne (Ne.symm h), if_neg (by simpa using h)]
      exact ih

/-- Uploads of one kind and one second have the same data. -/
def DistinctSeconds (uploads : List MediaUpload) : Prop :=
  ∀ u ∈ uploads, ∀ v ∈ uploads, u.kind = v.kind → u.dateString = v.dateString → u.data = v.data

theorem stored_path {uploads : List MediaUpload} {u : MediaUpload} (hu : u ∈ uploads) :
    ∃ v ∈ uploads, v.path = u.path ∧ stored uploads u.path = some v.data := by
  cases hlatest : latest (fun v : MediaUpload => v.path = u.path) uploads with
  | none => exact absurd (decide_eq_true rfl) (latest_eq_none.mp hlatest u hu)
  | some v =>
    obtain ⟨hv, hpath⟩ := mem_of_latest hlatest
    exact ⟨v, hv, of_decide_eq_true hpath, by rw [stored_eq_latest, hlatest, Option.map_some]⟩

theorem DistinctSeconds.stored_path {uploads : List MediaUpload} (h : DistinctSeconds uploads)
    {u : MediaUpload} (hu : u ∈ uploads) : stored uploads u.path = some u.data := by
  obtain ⟨v, hv, hpath, hstored⟩ := LiChat.stored_path hu
  obtain ⟨hkind, hdate⟩ := MediaUpload.lastComponent_inj.mp (MediaUpload.lastComponent_of_path hpath)
  rw [hstored, h v hv u hu hkind hdate]

/-- Every file on the device is the data of all uploads that would look for it. -/
def Coherent (storagePrefix : String) (uploads : List MediaUpload) (documents : DocumentsDirectory) :
    Prop :=
  ∀ u ∈ uploads, ∀ data, documents (mediaFileName (u.link.absoluteString storagePrefix)) = some data →
    data = u.data

theorem MediaKind.download_eq (kind : MediaKind) : kind.download = LiChat.download := by
  cases kind <;> rfl

theorem download_coherent {storagePrefix : String} {uploads : List MediaUpload}
    {documents : DocumentsDirectory} (h : DistinctSeconds uploads)
    (hI : Coherent storagePrefix uploads documents) {u : MediaUpload} (hu : u ∈ uploads) :
    (download storagePrefix (stored uploads) u.link documents).1 = some u.data ∧
      Coherent storagePrefix uploads (download storagePrefix (stored uploads) u.link documents).2 := by
  unfold download
  cases hfile : documents (mediaFileName (u.link.absoluteString storagePrefix)) with
  | some data =>
    simp only [hfile]
    exact ⟨congrArg some (hI u hu data hfile), hI⟩
  | none =>
    have hstored : stored uploads u.link.path = some u.data := h.stored_path hu
    simp only [hfile, hstored]
    refine ⟨trivial, fun v hv data hdata => ?_⟩
    by_cases hname : mediaFileName (v.link.absoluteString storagePrefix) =
        mediaFileName (u.link.absoluteString storagePrefix)
    · rw [hname, Function.update_self] at hdata
      obtain ⟨hkind, hdate⟩ := (MediaUpload.mediaFileName_eq_iff storagePrefix).mp hname
      rw [← Option.some.inj hdata]
      exact (h v hv u hu hkind hdate).symm
    · rw [Function.update_of_ne hname] at hdata
      exact hI v hv data hdata

theorem deliveries_eq {storagePrefix : String} {uploads : List MediaUpload} (h : DistinctSeconds uploads)
    (downloads : List MediaUpload) (hdownloads : ∀ u ∈ downloads, u ∈ uploads)
    {documents : DocumentsDirectory} (hI : Coherent storagePrefix uploads documents) :
    deliveries storagePrefix (stored uploads) downloads documents =
      downloads.map fun u => some u.data := by
  induction downloads generalizing documents with
  | nil => rfl
  | cons u downloads ih =>
    obtain ⟨hdata, hcoherent⟩ := download_coherent h hI (hdownloads u List.mem_cons_self)
    rw [deliveries, MediaKind.download_eq, List.map_cons]
    exact congrArg₂ List.cons hdata
      (ih (fun v hv => hdownloads v (List.mem_cons_of_mem _ hv)) hcoherent)

/-- The second of two downloads that look for one file delivers what the first has
fetched. -/
theorem deliveries_same_name {storagePrefix : String} {storage : Storage} {u v : MediaUpload}
    (hkind : u.kind = v.kind) (hdate : u.dateString = v.dateString) {data : NSData}
    (h : storage u.path = some data) :
    deliveries storagePrefix storage [u, v] (fun _ => none) = [some data, some data] := by
  have hname := (MediaUpload.mediaFileName_eq_iff storagePrefix).mpr ⟨hkind, hdate⟩
  have hlink : storage u.link.path = some data := h
  simp only [deliveries, MediaKind.download_eq, download, hlink, ← hname, Function.update_self]

/-- Whatever has been uploaded: all downloads in all orders deliver the data of their own
uploads exactly when no two uploads of one kind with different data fall into one second
of the uploaders' clocks. -/
theorem downloads_deliver_iff (storagePrefix : String) (uploads : List MediaUpload) :
    (∀ downloads : List MediaUpload, (∀ u ∈ downloads, u ∈ uploads) →
      deliveries storagePrefix (stored uploads) downloads (fun _ => none) =
        downloads.map fun u => some u.data) ↔ DistinctSeconds uploads := by
  constructor
  · intro h u hu v hv hkind hdate
    obtain ⟨w, -, -, hstored⟩ := stored_path hu
    have hboth := h [u, v] (by simp [hu, hv])
    rw [deliveries_same_name hkind hdate hstored] at hboth
    simp only [List.map_cons, List.map_nil, List.cons.injEq, Option.some.injEq] at hboth
    exact hboth.1.symm.trans hboth.2.1
  · intro h downloads hdownloads
    exact deliveries_eq h downloads hdownloads (by rintro _ _ _ ⟨⟩)

def midnightPicture (currentId : Uid) (chatRoomId : String) (data : NSData) : MediaUpload :=
  ⟨.image, currentId, chatRoomId, dateFormatter 0, 63684835200, data, "", List.not_mem_nil⟩

/-- The pictures of Ann and of Bea to two rooms, in one second. -/
def twoPictures : List MediaUpload :=
  [midnightPicture "ann" "anncarl" [1], midnightPicture "bea" "beacarl" [2]]

theorem midnightPicture_dateString (currentId : Uid) (chatRoomId : String) (data : NSData) :
    (midnightPicture currentId chatRoomId data).dateString = "20190204000000" := by
  have hdate : (dateFormatter 0).string 63684835200 = "20190204000000" := by decide +kernel
  exact hdate

theorem midnightPicture_path (currentId : Uid) (chatRoomId : String) (data : NSData) :
    (midnightPicture currentId chatRoomId data).path =
      photoFileName currentId chatRoomId "20190204000000" := by
  show photoFileName currentId chatRoomId (midnightPicture currentId chatRoomId data).dateString = _
  rw [midnightPicture_dateString]

/-- Carl gets the picture of Ann twice. -/
theorem downloads_deliver_another_picture :
    deliveries "https://storage/" (stored twoPictures) twoPictures (fun _ => none) =
      [some [1], some [1]] ∧
    ¬ ∀ downloads : List MediaUpload, (∀ u ∈ downloads, u ∈ twoPictures) →
      deliveries "https://storage/" (stored twoPictures) downloads (fun _ => none) =
        downloads.map fun u => some u.data := by
  have hstored : stored twoPictures (midnightPicture "ann" "anncarl" [1]).path = some [1] := by
    rw [stored_eq_latest, twoPictures]
    simp only [latest, midnightPicture_path]
    decide
  have htwice : deliveries "https://storage/" (stored twoPictures) twoPictures (fun _ => none) =
      [some [1], some [1]] := by
    have hdate : (midnightPicture "ann" "anncarl" [1]).dateString =
        (midnightPicture "bea" "beacarl" [2]).dateString := by
      rw [midnightPicture_dateString, midnightPicture_dateString]
    have hkind : (midnightPicture "ann" "anncarl" [1]).kind =
        (midnightPicture "bea" "beacarl" [2]).kind := by
      rfl
    exact deliveries_same_name hkind hdate hstored
  refine ⟨htwice, fun h => ?_⟩
  have hown := h twoPictures fun _ hu => hu
  rw [htwice] at hown
  simp [twoPictures, midnightPicture] at hown

end LiChat
