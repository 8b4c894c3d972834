/-
The primary files of a set, one by one. Either all of them are offered, in their order and under
names of their own, or there are no downloads for the first one that is missing. Delivered in a
directory they stand side by side, each with its content.
-/
import AppExport.Bundle.Download
import AppExport.Proofs.Bundle.Assemble
import AppExport.Proofs.Bundle.Delivery
import AppExport.Proofs.Disk.Directory

namespace AppExport.Bundle

open Disk (Content Fault Program Storage Wrote makeDirectories)

/-! ## Offers -/

/-- Whether a download is what an offer makes of a set. -/
structure Offer.Gives (offer : Offer) (files : FileSet) (download : Download) : Prop where
  filename : download.filename = offer.filename
  mediaType : download.mediaType = offer.mediaType
  content : files.get? offer.path = some download.content

variable {files : FileSet} {offer : Offer} {offers : List Offer} {download : Download}
  {downloads : List Download} {e : MissingFile} {config : Config}

theorem download_of_mem (h : offer.path ∈ files.paths) :
    ∃ download, offer.download files = .ok download ∧ offer.Gives files download := by
  obtain ⟨content, hcontent⟩ := Option.isSome_iff_exists.1 (FileSet.mem_paths_iff.1 h)
  exact ⟨⟨offer.filename, offer.mediaType, content⟩, by rw [Offer.download, hcontent],
    ⟨rfl, rfl, hcontent⟩⟩

theorem download_of_not_mem (h : offer.path ∉ files.paths) :
    offer.download files = .error ⟨offer.path⟩ := by
  rw [FileSet.mem_paths_iff, Option.not_isSome_iff_eq_none] at h
  rw [Offer.download, h]

/-- What comes of offers: a download for each of them, or the first path that the set lacks. -/
theorem mapM_download (files : FileSet) (offers : List Offer) :
    match (offers.map (·.path)).find? (· ∉ files.paths) with
    | none => ∃ downloads, offers.mapM (·.download files) = .ok downloads ∧
        List.Forall₂ (·.Gives files ·) offers downloads
    | some path => offers.mapM (·.download files) = .error ⟨path⟩ := by
  induction offers with
  | nil => exact ⟨[], rfl, .nil⟩
  | cons offer rest ih =>
    rw [List.map_cons, List.mapM_cons]
    by_cases hpath : offer.path ∈ files.paths
    · obtain ⟨download, hdownload, hgives⟩ := download_of_mem hpath
      rw [List.find?_cons_of_neg (by simpa using hpath), hdownload]
      cases hfind : (rest.map (·.path)).find? (· ∉ files.paths) with
      | none =>
        rw [hfind] at ih
        obtain ⟨downloads, hdownloads, hothers⟩ := ih
        exact ⟨download :: downloads, by rw [hdownloads]; rfl, .cons hgives hothers⟩
      | some path =>
        rw [hfind] at ih
        dsimp only at ih ⊢
        rw [ih]
        rfl
    · rw [List.find?_cons_of_pos (by simpa using hpath), download_of_not_mem hpath]
      rfl

theorem gives_of_mapM_download (h : offers.mapM (·.download files) = .ok downloads) :
    List.Forall₂ (·.Gives files ·) offers downloads := by
  have hresult := mapM_download files offers
  split at hresult
  next =>
    obtain ⟨found, hfound, hgives⟩ := hresult
    rw [h] at hfound
    cases hfound
    exact hgives
  next =>
    rw [h] at hresult
    cases hresult

/-- Downloads are called as they are offered. -/
theorem filenames_of_gives (h : List.Forall₂ (·.Gives files ·) offers downloads) :
    downloads.map (·.filename) = offers.map (·.filename) := by
  induction h with
  | nil => rfl
  | cons hgives _ ih => rw [List.map_cons, List.map_cons, hgives.filename, ih]

/-! ## The primary files -/

/-- The paths of the primary files, in the order in which they are offered. -/
def primaryPaths : List String := [Path.entry, Path.package, Path.manifest, Path.readme]

theorem downloads_eq_error_iff : Bundle.downloads files config = .error e ↔
    primaryPaths.find? (· ∉ files.paths) = some e.path := by
  have hresult := mapM_download files (Bundle.offers config)
  rw [show (Bundle.offers config).map (·.path) = primaryPaths from rfl] at hresult
  rw [Bundle.downloads]
  split at hresult
  next hfind =>
    obtain ⟨downloads, hdownloads, -⟩ := hresult
    rw [hfind, hdownloads]
    exact ⟨nofun, nofun⟩
  next path hfind =>
    rw [hfind, hresult]
    cases e
    simp

/-- There are downloads exactly if no primary file is missing. -/
theorem exists_downloads_iff : (∃ downloads, Bundle.downloads files config = .ok downloads) ↔
    ∀ path ∈ primaryPaths, path ∈ files.paths := by
  have hfind : (∀ path ∈ primaryPaths, path ∈ files.paths) ↔
      primaryPaths.find? (· ∉ files.paths) = none := by simp
  rw [hfind]
  cases hdownloads : Bundle.downloads files config with
  | ok downloads =>
    refine iff_of_true ⟨downloads, rfl⟩ (Option.eq_none_iff_forall_ne_some.2 fun path hpath => ?_)
    rw [downloads_eq_error_iff (e := ⟨path⟩) |>.2 hpath] at hdownloads
    cases hdownloads
  | error e =>
    refine iff_of_false nofun ?_
    rw [downloads_eq_error_iff.1 hdownloads]
    nofun

/-- The name of an entry module is told by its end from those of the other files. -/
theorem append_ending_not_mem (s : String) : s ++ "_App.tsx" ∉ primaryPaths.tail := by
  have hlast : (s ++ "_App.tsx").toList.getLast? = some 'x' := by
    rw [String.toList_append, List.getLast?_append]
    rfl
  have hothers : ∀ path ∈ primaryPaths.tail, path.toList.getLast? ≠ some 'x' := by decide
  exact fun hmem => hothers _ hmem hlast

theorem isName_entry {s : String} (h : '/' ∉ s.toList) : Disk.Path.IsName (s ++ "_App.tsx") :=
  Disk.Path.isName_append h (by decide) ⟨'A', by decide, by decide⟩

/-- Whether downloads are the primary files of a set in their order, each with what the set holds and
under a name of its own. -/
structure Offered (files : FileSet) (config : Config) (downloads : List Download) : Prop where
  filenames : downloads.map (·.filename) =
    [config.token ++ "_App.tsx", "package.json", "app.json", "README.md"]
  different : (downloads.map (·.filename)).Nodup
  mediaTypes : downloads.map (·.mediaType) =
    ["text/plain", "application/json", "application/json", "text/markdown"]
  contents : downloads.map (some ·.content) = primaryPaths.map files.get?

theorem offered_of_downloads (h : Bundle.downloads files config = .ok downloads) :
    Offered files config downloads := by
  have hgives := gives_of_mapM_download h
  have hfilenames : downloads.map (·.filename) =
      (config.token ++ "_App.tsx") :: primaryPaths.tail := filenames_of_gives hgives
  have hdifferent : ((config.token ++ "_App.tsx") :: primaryPaths.tail).Nodup :=
    List.nodup_cons.2 ⟨append_ending_not_mem _, by decide⟩
  obtain _ | ⟨hentry, _ | ⟨hpackage, _ | ⟨hmanifest, _ | ⟨hreadme, _ | _⟩⟩⟩⟩ := hgives
  refine ⟨hfilenames, hfilenames ▸ hdifferent, ?_, ?_⟩
  · simp only [List.map_cons, List.map_nil, hentry.mediaType, hpackage.mediaType,
      hmanifest.mediaType, hreadme.mediaType]
  · simp only [List.map_cons, List.map_nil, primaryPaths, hentry.content, hpackage.content,
      hmanifest.content, hreadme.content]

/-- The entry module comes first, under the project's name. -/
theorem Offered.exists_entry (h : Offered files config downloads) : ∃ entry rest,
    downloads = entry :: rest ∧ entry.filename = config.token ++ "_App.tsx" := by
  obtain ⟨entry, rest, rfl, hentry, -⟩ := List.map_eq_cons_iff.1 h.filenames
  exact ⟨entry, rest, rfl, hentry⟩

/-- The downloads of an app. -/
def appDownloads (forest : Component.Forest) (config : Config) : List Download :=
  [⟨config.token ++ "_App.tsx", "text/plain", entryModule forest config⟩,
   ⟨Path.package, "application/json", packageDescriptor config⟩,
   ⟨Path.manifest, "application/json", manifest config⟩,
   ⟨Path.readme, "text/markdown",
     Template.filled (readmeFields config) Template.readmeSource⟩]

/-- An assembled app lacks no primary file. -/
theorem downloads_assembled {forest : Component.Forest} (h : assemble forest config = .ok files) :
    Bundle.downloads files config = .ok (appDownloads forest config) := by
  rw [assemble_eq] at h
  cases h
  have hnodup : ((appFiles forest config).map Prod.fst).Nodup := nodup_appPaths
  have hget : ∀ file ∈ appFiles forest config,
      (FileSet.ofList (appFiles forest config)).get? file.1 = some file.2 :=
    fun _ hfile => FileSet.get?_ofList hnodup hfile
  have hentry := hget _ (.head _)
  have hpackage := hget _ (.tail _ (.head _))
  have hmanifest := hget _ (.tail _ (.tail _ (.head _)))
  have hreadme := hget _ (.tail _ (.tail _ (.tail _ (.head _))))
  dsimp only at hentry hpackage hmanifest hreadme
  rw [Bundle.downloads, Bundle.offers]
  simp only [List.mapM_cons, List.mapM_nil, Offer.download, hentry, hpackage, hmanifest, hreadme]
  rfl

theorem exists_assembled (forest : Component.Forest) (config : Config) :
    ∃ files, assemble forest config = .ok files ∧
      Bundle.downloads files config = .ok (appDownloads forest config) :=
  ⟨_, assemble_eq forest config, downloads_assembled (assemble_eq forest config)⟩

/-! ## Places -/

variable {d d' made : Disk Content} {directory : String} {paths : List String}

theorem isName_primary : ∀ path ∈ primaryPaths, Disk.Path.IsName path := by decide +kernel

/-- The primary files go to different places, also where the project's name leads elsewhere. -/
theorem places_of_offered (h : Offered files config downloads) (d : Disk Content)
    (directory : String) : downloads.Pairwise fun first second =>
      d.place (Disk.Path.join directory first.filename) ≠
        d.place (Disk.Path.join directory second.filename) := by
  have hnames := fun path (hpath : path ∈ primaryPaths.tail) =>
    isName_primary path (List.mem_of_mem_tail hpath)
  -- The project's name may have slashes, so only the last name of the entry module's path is known.
  obtain ⟨around, last, hentry, hlast⟩ : ∃ around last,
      Disk.Path.names (config.token ++ "_App.tsx") = around ++ [last ++ "_App.tsx"] ∧
        Disk.Path.IsName (last ++ "_App.tsx") :=
    Disk.Path.exists_names_append (by decide) ⟨'A', by decide, by decide⟩ config.token
  obtain ⟨location, hplace⟩ := Disk.place_join_last d hentry hlast directory
  have hpairwise : ((config.token ++ "_App.tsx") :: primaryPaths.tail).Pairwise
      fun first second => d.place (Disk.Path.join directory first) ≠
        d.place (Disk.Path.join directory second) := by
    refine List.pairwise_cons.2 ⟨fun path hpath heq => ?_, ?_⟩
    · rw [hplace, Disk.place_join_name d (hnames path hpath)] at heq
      exact append_ending_not_mem last ((List.cons.inj heq).1 ▸ hpath)
    · refine List.Pairwise.imp_of_mem (fun {first second} hfirst hsecond hne heq => ?_)
        (show primaryPaths.tail.Nodup by decide)
      rw [Disk.place_join_name d (hnames _ hfirst), Disk.place_join_name d (hnames _ hsecond)] at heq
      exact hne (List.cons.inj heq).1
  have hfilenames : (downloads.map (·.filename)).Pairwise fun first second =>
      d.place (Disk.Path.join directory first) ≠ d.place (Disk.Path.join directory second) :=
    h.filenames ▸ hpairwise
  rwa [List.pairwise_map] at hfilenames

/-! ## Delivery -/

/-- A download as a file of a set would be. -/
def Download.file (download : Download) : File := (download.filename, download.content)

theorem wrote_deliverDownload {path : String}
    (h : Program.on d (deliverDownload directory download : Program (Disk Content) Fault String) =
      (.ok path, d')) :
    path = (placed directory download.file).1 ∧ Wrote [placed directory download.file] d d' :=
  wrote_behind (Program.grows_makeDirectories directory) (fun _ _ => write_of_on_write) h

/-- What a delivery comes to: the paths written, the refusal that ended it, and the disk behind it. -/
def delivery (directory : String) (downloads : List Download) (d : Disk Content) :
    (List String × Option Fault) × Disk Content :=
  StateT.run (deliverDownloads directory downloads : StateM (Disk Content) _) d

theorem delivery_cons (directory : String) (download : Download) (rest : List Download)
    (d : Disk Content) :
    delivery directory (download :: rest) d =
      match Program.on d (deliverDownload directory download : Program (Disk Content) Fault String) with
      | (.ok path, d') =>
        match delivery directory rest d' with
        | ((paths, fault), last) => ((path :: paths, fault), last)
      | (.error fault, d') => (([], some fault), d') := by
  rw [delivery, deliverDownloads, StateT.run_bind, Program.on]
  cases StateT.run (deliverDownload directory download : Program (Disk Content) Fault String).run d with
  | mk result d' => cases result <;> rfl

/-- A delivery that nothing has ended: every download is where it was to go, and holds its content. -/
theorem wrote_delivery
    (hplaces : downloads.Pairwise fun first second =>
      d.place (Disk.Path.join directory first.filename) ≠
        d.place (Disk.Path.join directory second.filename))
    (h : delivery directory downloads d = ((paths, none), d')) :
    paths = downloads.map (fun download => (placed directory download.file).1) ∧
      Wrote (downloads.map (placed directory ·.file)) d d' := by
  -- Every step keeps the directories there are, so the places of the others stay different.
  induction downloads generalizing d paths with
  | nil =>
    cases h
    exact ⟨rfl, .of_grows (.refl _)⟩
  | cons download rest ih =>
    obtain ⟨hfirst, hrest⟩ := List.pairwise_cons.1 hplaces
    rw [delivery_cons] at h
    split at h
    next path middle hdownload =>
      split at h
      next others fault last hothers =>
        cases h
        obtain ⟨rfl, hwrote⟩ := wrote_deliverDownload hdownload
        simp only [← hwrote.keeps.place] at hfirst hrest
        obtain ⟨rfl, hwrote'⟩ := ih hrest hothers
        refine ⟨rfl, hwrote.append hwrote' ?_⟩
        intro placed₁ hplaced₁ placed₂ hplaced₂
        obtain rfl := List.mem_singleton.1 hplaced₁
        obtain ⟨other, hother, rfl⟩ := List.mem_map.1 hplaced₂
        rw [← hwrote.keeps.place, ← hwrote.keeps.place]
        exact (hfirst other hother).symm
    next => cases h

/-! ## Accepted deliveries -/

/-- What downloads leave in a directory. -/
def held (downloads : List Download) : List (String × Content) :=
  downloads.map fun download => (download.filename, .text download.content)

theorem on_deliverDownload (hserves : d.Serves directory)
    (haccepts : d.Accepts directory download.filename) :
    Program.on d (deliverDownload directory download : Program (Disk Content) Fault String) =
      (.ok (placed directory download.file).1, d.putAll (d.place directory) (held [download])) := by
  rw [deliverDownload, Program.on_bind, Disk.Makes.of_serves hserves]
  dsimp only
  rw [Program.on_bind, on_write, Disk.write_join hserves haccepts]
  rfl

/-- In a directory that accepts their names all downloads are written. -/
theorem delivery_of_accepts (hserves : d.Serves directory)
    (haccepts : ∀ download ∈ downloads, d.Accepts directory download.filename) :
    delivery directory downloads d =
      ((downloads.map fun download => (placed directory download.file).1, none),
        d.putAll (d.place directory) (held downloads)) := by
  induction downloads generalizing d with
  | nil => rfl
  | cons download rest ih =>
    obtain ⟨hfirst, hrest⟩ := List.forall_mem_cons.1 haccepts
    have hkeeps : Disk.Keeps d (d.putAll (d.place directory) (held [download])) :=
      Disk.keeps_putAll (by simpa [held] using hfirst.free)
    rw [delivery_cons, on_deliverDownload hserves hfirst]
    dsimp only
    rw [ih (hkeeps.serves hserves) fun other hother => (hrest other hother).putAll _ _,
      Disk.place_putAll, ← Disk.putAll_append]
    rfl

/-- The first download is refused where its name is too long. -/
theorem delivery_of_long (hserves : d.Serves directory) (hname : Disk.Path.IsName download.filename)
    (hnul : '\x00' ∉ download.filename.toList)
    (hnear : (Disk.Path.join directory download.filename).utf8ByteSize ≤ Disk.longestPath)
    (hlong : Disk.longestName < download.filename.utf8ByteSize) (rest : List Download) :
    delivery directory (download :: rest) d = (([], some .nameTooLong), d) := by
  rw [delivery_cons, deliverDownload, Program.on_bind, Disk.Makes.of_serves hserves]
  dsimp only
  rw [Program.on_bind, on_write, Disk.write_join_of_long hserves hname hnul hnear hlong]

/-- A download that no disk takes is refused. At most directories have been made then. -/
theorem deliverDownload_refused
    (hrefused : ∀ d : Disk Content, ∃ fault,
      d.write (Disk.Path.join directory download.filename) (.text download.content) = .error fault)
    (d : Disk Content) : ∃ fault d',
      Program.on d (deliverDownload directory download : Program (Disk Content) Fault String) =
        (.error fault, d') ∧ Disk.Grows d d' := by
  have hgrows := Program.grows_makeDirectories directory d
  rw [deliverDownload, Program.on_bind]
  split
  next middle hmade =>
    rw [hmade] at hgrows
    obtain ⟨fault, hwrite⟩ := hrefused middle
    rw [Program.on_bind, on_write, hwrite]
    exact ⟨fault, middle, rfl, hgrows⟩
  next fault middle hmade =>
    rw [hmade] at hgrows
    exact ⟨fault, middle, rfl, hgrows⟩

/-- Where the first download is refused, none is written. -/
theorem delivery_refused
    (hrefused : ∀ d : Disk Content, ∃ fault,
      d.write (Disk.Path.join directory download.filename) (.text download.content) = .error fault)
    (rest : List Download) (d : Disk Content) : ∃ fault d',
      delivery directory (download :: rest) d = (([], some fault), d') ∧ Disk.Grows d d' := by
  obtain ⟨fault, d', hrun, hgrows⟩ := deliverDownload_refused hrefused d
  exact ⟨fault, d', by rw [delivery_cons, hrun], hgrows⟩

/-- A directory that has been made for the first download is there for it. -/
theorem delivery_of_made (rest : List Download) (h : Disk.Makes d directory made) :
    delivery directory (download :: rest) d = delivery directory (download :: rest) made := by
  rw [delivery_cons, delivery_cons, deliverDownload, Program.on_bind, Program.on_bind, h,
    Disk.Makes.of_serves h.serves]

end AppExport.Bundle
