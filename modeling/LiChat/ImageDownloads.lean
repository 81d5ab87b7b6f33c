import LiChat.General.Runs
import LiChat.MediaCache
import Mathlib.Data.List.Forall2

/-!
# Pictures on their way

A picture that is not on the device is downloaded on a queue of its own.  The downloads of the
galleries and of the messages share the documents directory and come to their ends in any order.
-/

namespace LiChat
open Histories

/-- A download is about to get its data, to write them, or to run its completion. -/
inductive ImagePhase where
  | contentsOf
  | write (data : NSData)
  | completion (data : Option NSData)
  deriving DecidableEq

/-- The completion is that of a gallery or of a picture message. -/
structure ImageTask where
  gallery : Option ℕ
  imageUrl : DownloadURL
  phase : ImagePhase
  deriving DecidableEq

/-- `PicturesCollectionViewController` -/
structure PicturesCollection (UIImage : Type) where
  allImageLinks : List DownloadURL
  allImages : List UIImage

/-- The uploads so far, the files of one device, its downloads and its galleries. -/
structure ImageWorld (UIImage : Type) where
  uploads : List MediaUpload
  documents : DocumentsDirectory
  tasks : List ImageTask
  galleries : List (PicturesCollection UIImage)

inductive ImageAction where
  | uploadImage (u : MediaUpload)
  | createPictureMessage (imageUrl : DownloadURL)
  | viewDidLoad (allImageLinks : List DownloadURL)
  | proceed (i : ℕ) (succeeds : Bool)
  | removeItem (file : String)

namespace ImageWorld
variable {UIImage : Type} (storagePrefix : String) (image : NSData → Option UIImage)

def init : ImageWorld UIImage := ⟨[], fun _ => none, [], []⟩

def Uploaded (w : ImageWorld UIImage) (imageUrl : DownloadURL) : Prop :=
  ∃ u ∈ w.uploads, u.link = imageUrl

instance (w : ImageWorld UIImage) (imageUrl : DownloadURL) : Decidable (w.Uploaded imageUrl) :=
  inferInstanceAs (Decidable (∃ u ∈ w.uploads, u.link = imageUrl))

def completion (gallery : Option ℕ) (result : Option UIImage) (w : ImageWorld UIImage) :
    ImageWorld UIImage :=
  match gallery, result with
  | some k, some picture =>
    { w with
      galleries := w.galleries.modify k fun g => { g with allImages := g.allImages ++ [picture] } }
  | _, _ => w

def downloadImage (gallery : Option ℕ) (imageUrl : DownloadURL) (w : ImageWorld UIImage) :
    ImageWorld UIImage :=
  match w.documents (mediaFileName (imageUrl.absoluteString storagePrefix)) with
  | some contentsOfFile => w.completion gallery (image contentsOfFile)
  | none => { w with tasks := w.tasks ++ [⟨gallery, imageUrl, .contentsOf⟩] }

def downloadImages (k : ℕ) (allImageLinks : List DownloadURL) (w : ImageWorld UIImage) :
    ImageWorld UIImage :=
  allImageLinks.foldl (fun w imageUrl => w.downloadImage storagePrefix image (some k) imageUrl) w

/-- The next part of the `i`-th download.  Getting the data may fail; data that are no picture
trap in the completion. -/
def proceed (i : ℕ) (succeeds : Bool) (w : ImageWorld UIImage) : Option (ImageWorld UIImage) := do
  let task ← w.tasks[i]?
  match task.phase with
  | .contentsOf =>
    let phase : ImagePhase :=
      match if succeeds then stored w.uploads task.imageUrl.path else none with
      | some data => .write data
      | none => .completion none
    some { w with tasks := w.tasks.set i { task with phase := phase } }
  | .write data =>
    some { w with
      documents := Function.update w.documents
        (mediaFileName (task.imageUrl.absoluteString storagePrefix)) (some data)
      tasks := w.tasks.set i { task with phase := .completion (some data) } }
  | .completion none => some { w with tasks := w.tasks.eraseIdx i }
  | .completion (some data) => do
    let imageToReturn ← image data
    some ({ w with tasks := w.tasks.eraseIdx i }.completion task.gallery (some imageToReturn))

/-- The links come from messages, which are sent after the upload.  Cleaning the cache removes
the files one by one. -/
def step (w : ImageWorld UIImage) : ImageAction → Option (ImageWorld UIImage)
  | .uploadImage u => some { w with uploads := w.uploads ++ [u] }
  | .createPictureMessage imageUrl =>
    if w.Uploaded imageUrl then some (w.downloadImage storagePrefix image none imageUrl) else none
  | .viewDidLoad allImageLinks =>
    if ∀ imageUrl ∈ allImageLinks, w.Uploaded imageUrl then
      let opened : ImageWorld UIImage := { w with galleries := w.galleries ++ [⟨allImageLinks, []⟩] }
      some (opened.downloadImages storagePrefix image w.galleries.length allImageLinks)
    else none
  | .proceed i succeeds => w.proceed storagePrefix image i succeeds
  | .removeItem file => some { w with documents := Function.update w.documents file none }

def waitsFor (gallery : Option ℕ) (imageUrl : DownloadURL) (k : ℕ) : List DownloadURL :=
  if gallery = some k then [imageUrl] else []

def pending (tasks : List ImageTask) (k : ℕ) : List DownloadURL :=
  tasks.flatMap fun t => waitsFor t.gallery t.imageUrl k

theorem pending_concat (tasks : List ImageTask) (t : ImageTask) (k : ℕ) :
    pending (tasks ++ [t]) k = pending tasks k ++ waitsFor t.gallery t.imageUrl k := by
  simp [pending]

theorem pending_set {tasks : List ImageTask} {i : ℕ} {t : ImageTask} (h : tasks[i]? = some t)
    (phase : ImagePhase) (k : ℕ) :
    pending (tasks.set i { t with phase := phase }) k = pending tasks k := by
  obtain ⟨hi, rfl⟩ := List.getElem?_eq_some_iff.mp h
  conv_rhs => rw [← List.set_getElem_self hi]
  simp only [pending, List.set_eq_take_append_cons_drop, if_pos hi, List.flatMap_append,
    List.flatMap_cons]

theorem pending_eraseIdx {tasks : List ImageTask} {i : ℕ} {t : ImageTask} (h : tasks[i]? = some t)
    (k : ℕ) :
    (pending tasks k).Perm (waitsFor t.gallery t.imageUrl k ++ pending (tasks.eraseIdx i) k) := by
  obtain ⟨hi, rfl⟩ := List.getElem?_eq_some_iff.mp h
  exact ((List.getElem_cons_eraseIdx_perm hi).flatMap_right _).symm

/-- The picture of an upload with the same file name as the link. -/
def PictureOf (uploads : List MediaUpload) (imageUrl : DownloadURL) (picture : UIImage) : Prop :=
  ∃ v ∈ uploads, mediaFileName (v.link.absoluteString storagePrefix) =
    mediaFileName (imageUrl.absoluteString storagePrefix) ∧ image v.data = some picture

/-- The pictures shown, the links that are waited for and the missing ones are together the
links of the gallery.  None is missing but where getting data has failed or data are no picture. -/
def Shows (failed : Prop) (uploads : List MediaUpload) (waiting : List DownloadURL)
    (g : PicturesCollection UIImage) : Prop :=
  ∃ shown missing, List.Forall₂ (PictureOf storagePrefix image uploads) shown g.allImages ∧
    (shown ++ waiting ++ missing).Perm g.allImageLinks ∧
    (missing = [] ∨ failed ∨ ∃ u ∈ uploads, image u.data = none)

variable {storagePrefix image} {failed : Prop} {uploads : List MediaUpload}
  {waiting : List DownloadURL} {imageUrl : DownloadURL} {g : PicturesCollection UIImage}

theorem Shows.perm (h : Shows storagePrefix image failed uploads waiting g)
    {waiting' : List DownloadURL} (hperm : waiting'.Perm waiting) :
    Shows storagePrefix image failed uploads waiting' g := by
  obtain ⟨shown, missing, hshown, hlinks, hmissing⟩ := h
  exact ⟨shown, missing, hshown, ((hperm.append_left shown).append_right missing).trans hlinks,
    hmissing⟩

theorem Shows.upload (h : Shows storagePrefix image failed uploads waiting g) (u : MediaUpload) :
    Shows storagePrefix image failed (uploads ++ [u]) waiting g := by
  obtain ⟨shown, missing, hshown, hlinks, hmissing⟩ := h
  refine ⟨shown, missing, hshown.imp ?_, hlinks, hmissing.imp_right (Or.imp_right ?_)⟩
  · rintro url picture ⟨v, hv, hname⟩
    exact ⟨v, List.mem_append_left _ hv, hname⟩
  · rintro ⟨v, hv, hnone⟩
    exact ⟨v, List.mem_append_left _ hv, hnone⟩

theorem Shows.append (h : Shows storagePrefix image failed uploads (imageUrl :: waiting) g)
    {picture : UIImage} (hpicture : PictureOf storagePrefix image uploads imageUrl picture) :
    Shows storagePrefix image failed uploads waiting
      { g with allImages := g.allImages ++ [picture] } := by
  obtain ⟨shown, missing, hshown, hlinks, hmissing⟩ := h
  refine ⟨shown ++ [imageUrl], missing, List.rel_append hshown (.cons hpicture .nil), ?_, hmissing⟩
  rw [List.append_assoc, List.append_assoc, List.singleton_append]
  rwa [List.append_assoc, List.cons_append] at hlinks

theorem Shows.missing (h : Shows storagePrefix image failed uploads (imageUrl :: waiting) g)
    (hfailed : failed ∨ ∃ u ∈ uploads, image u.data = none) :
    Shows storagePrefix image failed uploads waiting g := by
  obtain ⟨shown, missing, hshown, hlinks, -⟩ := h
  refine ⟨shown, imageUrl :: missing, hshown, ?_, .inr hfailed⟩
  refine List.Perm.trans ?_ hlinks
  rw [List.append_assoc, List.append_assoc, List.cons_append]
  exact List.perm_middle.append_left shown

variable (storagePrefix image failed) in
/-- Besides its downloads under way, each gallery waits for the links that it is owed. -/
def Owes (owed : ℕ → List DownloadURL) (w : ImageWorld UIImage) : Prop :=
  ∀ (k : ℕ) (g : PicturesCollection UIImage), w.galleries[k]? = some g →
    Shows storagePrefix image failed w.uploads (owed k ++ pending w.tasks k) g

variable (storagePrefix image) in
def ResultOf (failed : Prop) (uploads : List MediaUpload) (imageUrl : DownloadURL) :
    Option UIImage → Prop
  | some picture => PictureOf storagePrefix image uploads imageUrl picture
  | none => failed ∨ ∃ u ∈ uploads, image u.data = none

variable (storagePrefix) in
/-- Every file has the data of an upload that would look for it. -/
def Filled (w : ImageWorld UIImage) : Prop :=
  ∀ file data, w.documents file = some data →
    ∃ v ∈ w.uploads, mediaFileName (v.link.absoluteString storagePrefix) = file ∧ v.data = data

variable {w w' : ImageWorld UIImage} {owed : ℕ → List DownloadURL} {gallery : Option ℕ}

theorem completion_uploads (result : Option UIImage) :
    (w.completion gallery result).uploads = w.uploads := by
  unfold completion
  split <;> rfl

theorem completion_documents (result : Option UIImage) :
    (w.completion gallery result).documents = w.documents := by
  unfold completion
  split <;> rfl

theorem completion_tasks (result : Option UIImage) :
    (w.completion gallery result).tasks = w.tasks := by
  unfold completion
  split <;> rfl

theorem completion_links (result : Option UIImage) :
    (w.completion gallery result).galleries.map PicturesCollection.allImageLinks =
      w.galleries.map PicturesCollection.allImageLinks := by
  unfold completion
  split
  · refine List.ext_getElem? fun k => ?_
    simp only [List.getElem?_map, List.getElem?_modify]
    cases w.galleries[k]? with
    | none => rfl
    | some g =>
      simp only [Option.map_eq_map, Option.map_some]
      split_ifs <;> rfl
  · rfl

theorem completion_galleries {result : Option UIImage} {k : ℕ} {g : PicturesCollection UIImage}
    (h : (w.completion gallery result).galleries[k]? = some g) :
    ∃ g', w.galleries[k]? = some g' ∧
      g = match result with
        | some picture =>
          if gallery = some k then { g' with allImages := g'.allImages ++ [picture] } else g'
        | none => g' := by
  unfold completion at h
  split at h
  · next k' picture =>
    simp only [List.getElem?_modify] at h
    obtain ⟨g', hg', rfl⟩ := Option.map_eq_some_iff.mp h
    refine ⟨g', hg', ?_⟩
    simp only [Option.some.injEq]
  · next hnot =>
    refine ⟨g, h, ?_⟩
    cases result with
    | none => rfl
    | some picture =>
      cases gallery with
      | none => rfl
      | some k' => exact absurd rfl (hnot k' picture rfl)

theorem Owes.completion (h : Owes storagePrefix image failed
      (fun k => waitsFor gallery imageUrl k ++ owed k) w) {result : Option UIImage}
    (hresult : ResultOf storagePrefix image failed w.uploads imageUrl result) :
    Owes storagePrefix image failed owed (w.completion gallery result) := by
  intro k g hg
  obtain ⟨g', hg', hsame⟩ := completion_galleries hg
  have hshows : Shows storagePrefix image failed w.uploads
    (waitsFor gallery imageUrl k ++ owed k ++ pending w.tasks k) g' := h k g' hg'
  rw [completion_uploads, completion_tasks]
  by_cases hk : gallery = some k
  · rw [waitsFor, if_pos hk, List.append_assoc, List.singleton_append] at hshows
    cases result with
    | none => exact hsame ▸ hshows.missing hresult
    | some picture =>
      simp only [if_pos hk] at hsame
      exact hsame ▸ hshows.append hresult
  · rw [waitsFor, if_neg hk, List.nil_append] at hshows
    cases result with
    | none => exact hsame ▸ hshows
    | some picture =>
      simp only [if_neg hk] at hsame
      exact hsame ▸ hshows

theorem Filled.result (h : w.Filled storagePrefix) {data : NSData}
    (hdata : w.documents (mediaFileName (imageUrl.absoluteString storagePrefix)) = some data) :
    ResultOf storagePrefix image failed w.uploads imageUrl (image data) := by
  obtain ⟨v, hv, hname, rfl⟩ := h _ _ hdata
  cases hpicture : image v.data with
  | none => exact .inr ⟨v, hv, hpicture⟩
  | some picture => exact ⟨v, hv, hname, hpicture⟩

theorem Owes.downloadImage (h : Owes storagePrefix image failed
      (fun k => waitsFor gallery imageUrl k ++ owed k) w) (hfilled : w.Filled storagePrefix) :
    Owes storagePrefix image failed owed (w.downloadImage storagePrefix image gallery imageUrl) := by
  unfold ImageWorld.downloadImage
  cases hfile : w.documents (mediaFileName (imageUrl.absoluteString storagePrefix)) with
  | some contentsOfFile => exact h.completion (hfilled.result hfile)
  | none =>
    intro k g hg
    refine (h k g hg).perm ?_
    rw [pending_concat, ← List.append_assoc, List.append_assoc (waitsFor gallery imageUrl k)]
    exact List.perm_append_comm

variable (storagePrefix image) in
theorem downloadImage_frame (w : ImageWorld UIImage) (gallery : Option ℕ) (imageUrl : DownloadURL) :
    (w.downloadImage storagePrefix image gallery imageUrl).uploads = w.uploads ∧
    (w.downloadImage storagePrefix image gallery imageUrl).documents = w.documents ∧
    (∀ t ∈ (w.downloadImage storagePrefix image gallery imageUrl).tasks,
      t ∈ w.tasks ∨ t = ⟨gallery, imageUrl, .contentsOf⟩) ∧
    (w.downloadImage storagePrefix image gallery imageUrl).galleries.map
      PicturesCollection.allImageLinks = w.galleries.map PicturesCollection.allImageLinks := by
  unfold ImageWorld.downloadImage
  cases w.documents (mediaFileName (imageUrl.absoluteString storagePrefix)) with
  | some contentsOfFile =>
    refine ⟨completion_uploads _, completion_documents _, fun t ht => .inl ?_, completion_links _⟩
    rwa [completion_tasks] at ht
  | none =>
    refine ⟨rfl, rfl, fun t ht => ?_, rfl⟩
    exact (List.mem_append.mp ht).imp_right List.mem_singleton.mp

/-- A download is for a link that has been uploaded, and has the data at its path. -/
structure Fetched (failed : Prop) (w : ImageWorld UIImage) (t : ImageTask) : Prop where
  uploaded : w.Uploaded t.imageUrl
  data : ∀ data, t.phase = .write data ∨ t.phase = .completion (some data) →
    ∃ v ∈ w.uploads, v.path = t.imageUrl.path ∧ v.data = data
  none : t.phase = .completion none → failed
  gallery : ∀ k, t.gallery = some k → k < w.galleries.length

variable (storagePrefix image failed) in
structure Consistent (owed : ℕ → List DownloadURL) (w : ImageWorld UIImage) : Prop where
  files : w.Filled storagePrefix
  tasks : ∀ t ∈ w.tasks, Fetched failed w t
  links : ∀ allImageLinks ∈ w.galleries.map PicturesCollection.allImageLinks,
    ∀ imageUrl ∈ allImageLinks, w.Uploaded imageUrl
  shows : Owes storagePrefix image failed owed w

theorem mediaFileName_of_path {u v : MediaUpload} (h : v.path = u.path) :
    mediaFileName (v.link.absoluteString storagePrefix) =
      mediaFileName (u.link.absoluteString storagePrefix) := by
  rw [MediaUpload.mediaFileName_link, MediaUpload.mediaFileName_link,
    MediaUpload.lastComponent_of_path h]

theorem Fetched.mediaFileName {t : ImageTask} (h : Fetched failed w t) {v : MediaUpload}
    (hv : v.path = t.imageUrl.path) : LiChat.mediaFileName (v.link.absoluteString storagePrefix) =
      LiChat.mediaFileName (t.imageUrl.absoluteString storagePrefix) := by
  obtain ⟨u, -, hu⟩ := h.uploaded
  rw [← hu] at hv ⊢
  exact mediaFileName_of_path hv

theorem Uploaded.frame (h : w.Uploaded imageUrl) (huploads : w.uploads ⊆ w'.uploads) :
    w'.Uploaded imageUrl := by
  obtain ⟨u, hu, hlink⟩ := h
  exact ⟨u, huploads hu, hlink⟩

theorem Fetched.frame {t : ImageTask} (h : Fetched failed w t) (huploads : w.uploads ⊆ w'.uploads)
    (hgalleries : w.galleries.length ≤ w'.galleries.length) : Fetched failed w' t where
  uploaded := h.uploaded.frame huploads
  data data hdata := by
    obtain ⟨v, hv, hsame⟩ := h.data data hdata
    exact ⟨v, huploads hv, hsame⟩
  none := h.none
  gallery k hk := (h.gallery k hk).trans_le hgalleries

theorem Consistent.downloadImage (h : Consistent storagePrefix image failed
      (fun k => waitsFor gallery imageUrl k ++ owed k) w) (huploaded : w.Uploaded imageUrl)
    (hgallery : ∀ k, gallery = some k → k < w.galleries.length) :
    Consistent storagePrefix image failed owed
      (w.downloadImage storagePrefix image gallery imageUrl) := by
  obtain ⟨huploads, hdocuments, htasks, hlinks⟩ :=
    downloadImage_frame storagePrefix image w gallery imageUrl
  have hlength := congrArg List.length hlinks
  rw [List.length_map, List.length_map] at hlength
  refine ⟨?_, fun t ht => ?_, fun links hmem url hurl => ?_, h.shows.downloadImage h.files⟩
  · unfold Filled
    rw [hdocuments, huploads]
    exact h.files
  · refine Fetched.frame (w := w) ?_ (fun u hu => huploads ▸ hu) hlength.ge
    rcases htasks t ht with hold | rfl
    · exact h.tasks t hold
    · exact ⟨huploaded, fun data hdata => by simp at hdata, nofun, hgallery⟩
  · exact (h.links links (hlinks ▸ hmem) url hurl).frame fun u hu => huploads ▸ hu

theorem Consistent.downloadImages {k : ℕ} {allImageLinks : List DownloadURL}
    (h : Consistent storagePrefix image failed
      (fun k' => allImageLinks.flatMap fun imageUrl => waitsFor (some k) imageUrl k') w)
    (huploaded : ∀ imageUrl ∈ allImageLinks, w.Uploaded imageUrl) (hk : k < w.galleries.length) :
    Consistent storagePrefix image failed (fun _ => [])
      (w.downloadImages storagePrefix image k allImageLinks) := by
  induction allImageLinks generalizing w with
  | nil => exact h
  | cons imageUrl allImageLinks ih =>
    have hfirst := h.downloadImage (huploaded imageUrl List.mem_cons_self) (by rintro _ ⟨⟩; exact hk)
    obtain ⟨huploads, -, -, hlinks⟩ := downloadImage_frame storagePrefix image w (some k) imageUrl
    have hlength := congrArg List.length hlinks
    rw [List.length_map, List.length_map] at hlength
    refine ih hfirst (fun url hurl => ?_) (hlength ▸ hk)
    exact (huploaded url (List.mem_cons_of_mem _ hurl)).frame fun u hu => huploads ▸ hu

theorem consistent_init : Consistent storagePrefix image failed (fun _ => []) init where
  files _ _ h := by cases h
  tasks _ h := absurd h List.not_mem_nil
  links _ h := absurd h List.not_mem_nil
  shows _ _ h := by cases h

theorem Consistent.uploadImage (h : Consistent storagePrefix image failed owed w)
    (u : MediaUpload) :
    Consistent storagePrefix image failed owed { w with uploads := w.uploads ++ [u] } where
  files file data hdata := by
    obtain ⟨v, hv, hsame⟩ := h.files file data hdata
    exact ⟨v, List.mem_append_left _ hv, hsame⟩
  tasks t ht := (h.tasks t ht).frame (List.subset_append_left _ _) le_rfl
  links links hmem imageUrl hlink :=
    (h.links links hmem imageUrl hlink).frame (List.subset_append_left _ _)
  shows k g hg := (h.shows k g hg).upload u

theorem Consistent.pending_eq_nil (h : Consistent storagePrefix image failed owed w) :
    pending w.tasks w.galleries.length = [] := by
  refine List.flatMap_eq_nil_iff.mpr fun t ht => ?_
  rw [waitsFor, if_neg fun hk => ((h.tasks t ht).gallery _ hk).false]

theorem flatMap_waitsFor (k k' : ℕ) (allImageLinks : List DownloadURL) :
    (allImageLinks.flatMap fun imageUrl => waitsFor (some k) imageUrl k') =
      if k = k' then allImageLinks else [] := by
  by_cases hk : k = k'
  · simp [waitsFor, hk]
  · simp [waitsFor, hk]

theorem Consistent.viewDidLoad (h : Consistent storagePrefix image failed (fun _ => []) w)
    {allImageLinks : List DownloadURL} (huploaded : ∀ imageUrl ∈ allImageLinks, w.Uploaded imageUrl) :
    Consistent storagePrefix image failed (fun _ => []) (({ w with
      galleries := w.galleries ++ [⟨allImageLinks, []⟩] } : ImageWorld UIImage).downloadImages
        storagePrefix image w.galleries.length allImageLinks) := by
  have hlonger : w.galleries.length ≤
      (w.galleries ++ [(⟨allImageLinks, []⟩ : PicturesCollection UIImage)]).length := by simp
  refine Consistent.downloadImages ⟨h.files, ?_, ?_, ?_⟩ huploaded (by simp)
  · exact fun t ht => (h.tasks t ht).frame (List.Subset.refl _) hlonger
  · intro links hmem
    rw [List.map_append, List.mem_append] at hmem
    rcases hmem with hold | hnew
    · exact h.links links hold
    · obtain rfl := List.mem_singleton.mp hnew
      exact huploaded
  · intro k g hg
    simp only [flatMap_waitsFor]
    rcases Nat.lt_trichotomy k w.galleries.length with hlt | rfl | hgt
    · rw [if_neg hlt.ne', List.nil_append]
      exact h.shows k g ((List.getElem?_append_left hlt).symm.trans hg)
    · obtain rfl := Option.some.inj (List.getElem?_concat_length.symm.trans hg)
      rw [if_pos rfl, h.pending_eq_nil, List.append_nil]
      exact ⟨[], [], .nil, by simp, .inl rfl⟩
    · obtain ⟨hlt, -⟩ := List.getElem?_eq_some_iff.mp hg
      rw [List.length_append, List.length_singleton] at hlt
      omega

theorem Consistent.setPhase (h : Consistent storagePrefix image failed (fun _ => []) w) {i : ℕ}
    {t : ImageTask} (ht : w.tasks[i]? = some t) {phase : ImagePhase} {documents : DocumentsDirectory}
    (hphase : Fetched failed w { t with phase := phase })
    (hfilled : Filled storagePrefix { w with documents := documents }) :
    Consistent storagePrefix image failed (fun _ => []) { w with
      documents := documents
      tasks := w.tasks.set i { t with phase := phase } } where
  files := hfilled
  tasks t' ht' := by
    rcases List.mem_or_eq_of_mem_set ht' with hold | rfl
    · exact (h.tasks t' hold).frame (List.Subset.refl _) le_rfl
    · exact hphase.frame (List.Subset.refl _) le_rfl
  links := h.links
  shows k g hg := by
    have hshows : Shows storagePrefix image failed w.uploads (pending w.tasks k) g := h.shows k g hg
    rwa [← pending_set ht phase] at hshows

theorem Consistent.complete (h : Consistent storagePrefix image failed (fun _ => []) w) {i : ℕ}
    {t : ImageTask} (ht : w.tasks[i]? = some t) {result : Option UIImage}
    (hresult : ResultOf storagePrefix image failed w.uploads t.imageUrl result) :
    Consistent storagePrefix image failed (fun _ => [])
      (({ w with tasks := w.tasks.eraseIdx i } : ImageWorld UIImage).completion t.gallery result) := by
  have hlinks : (({ w with tasks := w.tasks.eraseIdx i } : ImageWorld UIImage).completion t.gallery
      result).galleries.map PicturesCollection.allImageLinks =
        w.galleries.map PicturesCollection.allImageLinks := completion_links result
  have hlength := congrArg List.length hlinks
  rw [List.length_map, List.length_map] at hlength
  refine ⟨?_, fun t' ht' => ?_, fun links hmem url hurl => ?_, ?_⟩
  · unfold Filled
    rw [completion_documents, completion_uploads]
    exact h.files
  · rw [completion_tasks] at ht'
    refine (h.tasks t' (List.mem_of_mem_eraseIdx ht')).frame (fun u hu => ?_) hlength.ge
    rwa [completion_uploads]
  · refine (h.links links (hlinks ▸ hmem) url hurl).frame fun u hu => ?_
    rwa [completion_uploads]
  · have howes : Owes storagePrefix image failed (fun k => waitsFor t.gallery t.imageUrl k ++ [])
        { w with tasks := w.tasks.eraseIdx i } := by
      intro k g hg
      have hshows : Shows storagePrefix image failed w.uploads (pending w.tasks k) g := h.shows k g hg
      simp only [List.append_nil]
      exact hshows.perm (pending_eraseIdx ht k).symm
    exact howes.completion hresult

theorem Consistent.proceed (h : Consistent storagePrefix image failed (fun _ => []) w) {i : ℕ}
    {succeeds : Bool} (hfailed : succeeds = false → failed)
    (hs : w.proceed storagePrefix image i succeeds = some w') :
    Consistent storagePrefix image failed (fun _ => []) w' := by
  obtain ⟨t, ht, hs⟩ := Option.bind_eq_some_iff.mp hs
  have hfetched := h.tasks t (List.mem_of_getElem? ht)
  obtain ⟨u, hu, hlink⟩ := hfetched.uploaded
  have hpath : u.path = t.imageUrl.path := congrArg DownloadURL.path hlink
  cases hphase : t.phase with
  | contentsOf =>
    simp only [hphase, Option.some.injEq] at hs
    subst hs
    refine h.setPhase ht ?_ h.files
    cases succeeds with
    | false =>
      exact ⟨hfetched.uploaded, fun data hdata => by simp at hdata, fun _ => hfailed rfl,
        hfetched.gallery⟩
    | true =>
      -- the path has the data of an upload to it, which need not be the one of the link
      obtain ⟨v, hv, hsame, hstored⟩ := stored_path hu
      rw [hpath] at hsame hstored
      simp only [if_true, hstored]
      refine ⟨hfetched.uploaded, fun data hdata => ⟨v, hv, hsame, ?_⟩, nofun, hfetched.gallery⟩
      simpa using hdata
  | write data =>
    simp only [hphase, Option.some.injEq] at hs
    subst hs
    obtain ⟨v, hv, hsame, hdata⟩ := hfetched.data data (.inl hphase)
    refine h.setPhase ht ⟨hfetched.uploaded, fun data' hdata' => ⟨v, hv, hsame, ?_⟩, nofun,
      hfetched.gallery⟩ fun file data' hfile => ?_
    · rw [hdata]
      simpa using hdata'
    · -- only the file of the link is written
      by_cases hname : file = mediaFileName (t.imageUrl.absoluteString storagePrefix)
      · subst hname
        refine ⟨v, hv, hfetched.mediaFileName hsame, hdata.trans ?_⟩
        simpa using hfile
      · exact h.files file data' (by simpa [Function.update_of_ne hname] using hfile)
  | completion data =>
    cases data with
    | none =>
      simp only [hphase, Option.some.injEq] at hs
      subst hs
      have hresult : ResultOf storagePrefix image failed w.uploads t.imageUrl none :=
        .inl (hfetched.none hphase)
      have hdone := h.complete ht hresult
      unfold ImageWorld.completion at hdone
      split at hdone
      · next heq => cases heq
      · exact hdone
    | some data =>
      simp only [hphase] at hs
      obtain ⟨picture, hpicture, hs⟩ := Option.bind_eq_some_iff.mp hs
      obtain rfl := Option.some.inj hs
      obtain ⟨v, hv, hsame, rfl⟩ := hfetched.data data (.inr hphase)
      have hresult : ResultOf storagePrefix image failed w.uploads t.imageUrl (some picture) :=
        ⟨v, hv, hfetched.mediaFileName hsame, hpicture⟩
      exact h.complete ht hresult

theorem Consistent.step (h : Consistent storagePrefix image failed (fun _ => []) w) {a : ImageAction}
    (hfailed : ∀ i, a = .proceed i false → failed) (hs : w.step storagePrefix image a = some w') :
    Consistent storagePrefix image failed (fun _ => []) w' := by
  cases a with
  | uploadImage u =>
    obtain rfl := Option.some.inj hs
    exact h.uploadImage u
  | createPictureMessage imageUrl =>
    simp only [ImageWorld.step, Option.ite_none_right_eq_some, Option.some.injEq] at hs
    obtain ⟨huploaded, rfl⟩ := hs
    exact Consistent.downloadImage h huploaded nofun
  | viewDidLoad allImageLinks =>
    simp only [ImageWorld.step, Option.ite_none_right_eq_some, Option.some.injEq] at hs
    obtain ⟨huploaded, rfl⟩ := hs
    exact h.viewDidLoad huploaded
  | proceed i succeeds =>
    refine h.proceed (fun hfalse => ?_) hs
    subst hfalse
    exact hfailed i rfl
  | removeItem file =>
    obtain rfl := Option.some.inj hs
    refine ⟨fun file' data hdata => ?_, fun t ht => (h.tasks t ht).frame (List.Subset.refl _) le_rfl,
      h.links, h.shows⟩
    by_cases hfile : file' = file
    · subst hfile
      simp at hdata
    · exact h.files file' data (by simpa [Function.update_of_ne hfile] using hdata)

/-- The link of an upload and a file name of it tell the data where the seconds are distinct. -/
theorem PictureOf.of_distinctSeconds {picture : UIImage}
    (h : PictureOf storagePrefix image uploads imageUrl picture) (hdistinct : DistinctSeconds uploads)
    {u : MediaUpload} (hu : u ∈ uploads) (hlink : u.link = imageUrl) :
    image u.data = some picture := by
  obtain ⟨v, hv, hname, hpicture⟩ := h
  rw [← hlink] at hname
  obtain ⟨hkind, hdate⟩ := (MediaUpload.mediaFileName_eq_iff storagePrefix).mp hname
  rwa [← hdistinct v hv u hu hkind hdate]

theorem Consistent.proceed_isSome (h : Consistent storagePrefix image failed owed w)
    (hpictures : ∀ u ∈ w.uploads, (image u.data).isSome) {i : ℕ} (hi : i < w.tasks.length)
    (succeeds : Bool) : (w.proceed storagePrefix image i succeeds).isSome := by
  have ht := List.getElem?_eq_getElem hi
  have hfetched := h.tasks _ (List.mem_of_getElem? ht)
  unfold ImageWorld.proceed
  rw [ht, Option.bind_eq_bind, Option.bind_some]
  cases hphase : w.tasks[i].phase with
  | contentsOf => rfl
  | write data => rfl
  | completion data =>
    cases data with
    | none => rfl
    | some data =>
      obtain ⟨v, hv, -, rfl⟩ := hfetched.data data (.inr hphase)
      obtain ⟨picture, hpicture⟩ := Option.isSome_iff_exists.mp (hpictures v hv)
      simp [hpicture]

end ImageWorld

open ImageWorld in
/-- For every run of uploads, picture messages and galleries on one device, whose downloads come
to their ends in any order and whose cache may be cleaned at any time, where no two uploads of one
kind with different data fall into one second: a gallery shows pictures of its own links, each
link once, and waits for the others; where all data are pictures no completion traps, and where
no download has failed besides, nothing is missing. -/
theorem galleries_of_run {UIImage : Type} (storagePrefix : String) (image : NSData → Option UIImage)
    (actions : List ImageAction) (w : ImageWorld UIImage)
    (hrun : Runs.exec (ImageWorld.step storagePrefix image) init actions = some w)
    (hdistinct : DistinctSeconds w.uploads) :
    (∀ (k : ℕ) (g : PicturesCollection UIImage), w.galleries[k]? = some g → ∃ shown missing,
      List.Forall₂ (fun imageUrl picture => ∃ u ∈ w.uploads, u.link = imageUrl ∧
        image u.data = some picture) shown g.allImages ∧
      (shown ++ pending w.tasks k ++ missing).Perm g.allImageLinks ∧
      ((∀ i, .proceed i false ∉ actions) → (∀ u ∈ w.uploads, (image u.data).isSome) →
        missing = [])) ∧
    ((∀ u ∈ w.uploads, (image u.data).isSome) → ∀ i < w.tasks.length, ∀ succeeds,
      (w.step storagePrefix image (.proceed i succeeds)).isSome) := by
  have hguard : Runs.Guarded (ImageWorld.step storagePrefix image)
      (fun _ a => ∀ i, a = .proceed i false → ∃ i, .proceed i false ∈ actions) init actions := by
    intro pre a _ _ hpre _ _ i ha
    exact ⟨i, ha ▸ hpre.subset (List.mem_append_right pre List.mem_cons_self)⟩
  have h : Consistent storagePrefix image (∃ i, .proceed i false ∈ actions) (fun _ => []) w :=
    (Runs.always_of_guarded (fun _ _ _ hI ha hs => Consistent.step hI ha hs) consistent_init
      hguard).last hrun
  refine ⟨fun k g hg => ?_, fun hpictures i hi succeeds => h.proceed_isSome hpictures hi succeeds⟩
  obtain ⟨shown, missing, hshown, hlinks, hmissing⟩ := h.shows k g hg
  rw [List.nil_append] at hlinks
  refine ⟨shown, missing, ?_, hlinks, fun hsucceeds hpictures => ?_⟩
  · have huploaded : ∀ imageUrl ∈ shown, w.Uploaded imageUrl := by
      intro imageUrl hurl
      refine h.links g.allImageLinks (List.mem_map_of_mem (List.mem_of_getElem? hg)) imageUrl ?_
      exact hlinks.subset (List.mem_append_left _ (List.mem_append_left _ hurl))
    refine ((List.forall₂_and_left shown g.allImages).mpr ⟨huploaded, hshown⟩).imp ?_
    rintro imageUrl picture ⟨⟨u, hu, hlink⟩, hpicture⟩
    exact ⟨u, hu, hlink, hpicture.of_distinctSeconds hdistinct hu hlink⟩
  · rcases hmissing with hnil | ⟨i, hi⟩ | ⟨u, hu, hnone⟩
    · exact hnil
    · exact absurd hi (hsucceeds i)
    · have hsome := hpictures u hu
      rw [hnone] at hsome
      cases hsome

/-- A gallery with a picture that has been sent twice; the second download comes first. -/
theorem galleries_of_run_twice : ∃ w, ∃ g : PicturesCollection NSData,
    let picture := midnightPicture "ann" "anncarl" [1]
    Runs.exec (ImageWorld.step "https://storage/" some) ImageWorld.init
      [.uploadImage picture, .viewDidLoad [picture.link, picture.link], .proceed 1 true,
        .proceed 1 true, .proceed 1 true, .proceed 0 true, .proceed 0 true, .proceed 0 true] = some w ∧
    w.galleries[0]? = some g ∧ ∃ shown, shown.Perm [picture.link, picture.link] ∧
      List.Forall₂ (fun imageUrl content => ∃ u ∈ w.uploads, u.link = imageUrl ∧
        some u.data = some content) shown g.allImages := by
  set picture := midnightPicture "ann" "anncarl" [1]
  obtain ⟨w, hrun, htasks, huploads, hlength, hlinks⟩ : ∃ w : ImageWorld NSData,
      Runs.exec (ImageWorld.step "https://storage/" some) ImageWorld.init
        [.uploadImage picture, .viewDidLoad [picture.link, picture.link], .proceed 1 true,
          .proceed 1 true, .proceed 1 true, .proceed 0 true, .proceed 0 true, .proceed 0 true] =
          some w ∧ w.tasks = [] ∧ (w.uploads.all fun u => u.data = [1]) = true ∧
        w.galleries.length = 1 ∧
        (w.galleries.all fun g => g.allImageLinks = [picture.link, picture.link]) = true :=
    Runs.exists_of_any (by decide +kernel)
  have hdata : ∀ u ∈ w.uploads, u.data = [1] := fun u hu =>
    of_decide_eq_true (List.all_eq_true.mp huploads u hu)
  obtain ⟨g, hg⟩ : ∃ g, w.galleries[0]? = some g := ⟨_, List.getElem?_eq_getElem (by omega)⟩
  have hg' : g.allImageLinks = [picture.link, picture.link] :=
    of_decide_eq_true (List.all_eq_true.mp hlinks g (List.mem_of_getElem? hg))
  obtain ⟨shown, missing, hshown, hperm, hmissing⟩ := (galleries_of_run "https://storage/" some _ w
    hrun fun u hu v hv _ _ => (hdata u hu).trans (hdata v hv).symm).1 0 g hg
  rw [htasks, hmissing (by simp) (by simp), List.append_nil, hg'] at hperm
  exact ⟨w, g, hrun, hg, shown, by simpa [ImageWorld.pending] using hperm, hshown⟩

end LiChat
