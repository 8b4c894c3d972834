/-
Where commands write. An export as an archive or as downloads, and a build, write single files that
are named after the project, next to each other in the directory they are given. As long as the
name has no slash, whatever such a command does, and wherever it fails, nothing on the disk changes
but the files directly inside that directory and the directories that are made on the way to it.
Blanks are the only characters that a token replaces, so a name with slashes leads elsewhere.
-/
import AppExport.Proofs.Build.Simulation
import AppExport.Proofs.Bundle.Download
import AppExport.Proofs.Cli.Export
import AppExport.Proofs.Naming

namespace AppExport.Disk

variable {α : Type}

/-- Whether a disk is an earlier one with directories added and otherwise only changed directly
inside a location. -/
structure Within (inside : Location) (d d' : Disk α) : Prop where
  here : d'.here = d.here
  items : ∀ location, d'.item? location = d.item? location ∨
    (d.item? location = none ∧ d'.item? location = some .directory) ∨
      ∃ name, location = name :: inside

namespace Within

variable {inside : Location} {d d' d'' : Disk α}

theorem of_grows (h : Grows d d') : Within inside d d' :=
  ⟨h.here, fun location => (h.items location).imp_right .inl⟩

theorem refl (inside : Location) (d : Disk α) : Within inside d d := of_grows (.refl d)

theorem trans (h : Within inside d d') (h' : Within inside d' d'') : Within inside d d'' := by
  refine ⟨h'.here.trans h.here, fun location => ?_⟩
  rcases h.items location with hsame | ⟨hnone, hmade⟩ | hinside
  · rcases h'.items location with hsame' | ⟨hnone', hmade'⟩ | hinside'
    · exact .inl (hsame'.trans hsame)
    · exact .inr (.inl ⟨hsame ▸ hnone', hmade'⟩)
    · exact .inr (.inr hinside')
  · rcases h'.items location with hsame' | ⟨hnone', -⟩ | hinside'
    · exact .inr (.inl ⟨hnone, hsame'.trans hmade⟩)
    · rw [hmade] at hnone'
      cases hnone'
    · exact .inr (.inr hinside')
  · exact .inr (.inr hinside)

theorem of_write {path name : String} {content : α} (hplace : d.place path = name :: inside)
    (h : d.write path content = .ok d') : Within inside d d' := by
  obtain ⟨around, last, hfollow, -, -, -, rfl⟩ := exists_of_write h
  rw [place_of_follow hfollow] at hplace
  obtain ⟨rfl, rfl⟩ := List.cons.inj hplace
  refine ⟨rfl, fun location => ?_⟩
  by_cases hlocation : location = last :: around
  · exact .inr (.inr ⟨last, hlocation⟩)
  · exact .inl (item?_put_of_ne d hlocation _)

end Within

theorem place_congr {d d' : Disk α} (h : d'.here = d.here) (path : String) :
    d'.place path = d.place path := by
  rw [place, place, h]

end AppExport.Disk

namespace AppExport.Cli

open Build (Platform Sent Stage Variant)
open Disk (Content Fault Location Program Storage Within makeDirectories)

variable {α β ε ε' : Type}

/-! ## Programs with a disk and a terminal -/

/-- A program that prints lines and changes a disk. -/
abbrev Session (α : Type) : Type := StateT (List String) (StateM (Disk Content)) α

/-- The disk behind a program. -/
def Session.behind (lines : List String) (d : Disk Content) (program : Session α) : Disk Content :=
  ((program.run lines).run d).2

/-- Whether a program that starts on a disk with a working directory only changes it within a
location. -/
def Session.Stays (here inside : Location) (program : Session α) : Prop :=
  ∀ lines d, d.here = here → Within inside d (program.behind lines d)

namespace Session.Stays

variable {here inside : Location}

theorem pure (a : α) : Stays here inside (Pure.pure a : Session α) := fun _ d _ => .refl inside d

/-- A program that stays within a location, behind one that does so on a disk. -/
theorem behind_bind {program : Session α} {more : α → Session β} {lines : List String}
    {d : Disk Content} (h : Within inside d (program.behind lines d))
    (hmore : ∀ a, Stays d.here inside (more a)) :
    Within inside d ((program >>= more).behind lines d) := by
  rw [behind, StateT.run_bind, StateT.run_bind]
  exact h.trans (hmore _ _ (program.behind lines d) h.here)

theorem bind {program : Session α} {more : α → Session β} (h : Stays here inside program)
    (hmore : ∀ a, Stays here inside (more a)) : Stays here inside (program >>= more) :=
  fun lines d hhere => behind_bind (h lines d hhere) (hhere ▸ hmore)

theorem map {program : Session α} (f : α → β) (h : Stays here inside program) :
    Stays here inside (f <$> program) := h.bind fun _ => .pure _

theorem behind_andThen {program : ExceptT ε Session α} {more : α → ExceptT ε Session β}
    {lines : List String} {d : Disk Content}
    (h : Within inside d (Session.behind lines d program.run))
    (hmore : ∀ a, Stays d.here inside (more a).run) :
    Within inside d (Session.behind lines d (program >>= more).run) := by
  rw [ExceptT.run_bind]
  refine behind_bind h fun result => ?_
  cases result with
  | ok a => exact hmore a
  | error e => exact .pure _

theorem andThen {program : ExceptT ε Session α} {more : α → ExceptT ε Session β}
    (h : Stays here inside program.run) (hmore : ∀ a, Stays here inside (more a).run) :
    Stays here inside (program >>= more).run :=
  fun lines d hhere => behind_andThen (h lines d hhere) (hhere ▸ hmore)

theorem tryCatch {program : ExceptT ε Session α} {handler : ε → ExceptT ε Session α}
    (h : Stays here inside program.run) (hhandler : ∀ e, Stays here inside (handler e).run) :
    Stays here inside (tryCatch program handler).run := by
  simp only [MonadExcept.tryCatch, tryCatchThe, MonadExceptOf.tryCatch, ExceptT.tryCatch,
    ExceptT.run_mk]
  refine Stays.bind h fun result => ?_
  cases result with
  | ok a => exact .pure _
  | error e => exact hhandler e

theorem adapt {program : ExceptT ε Session α} (f : ε → ε') (h : Stays here inside program.run) :
    Stays here inside (ExceptT.adapt f program : ExceptT ε' Session α).run := h.map _

theorem lift {program : Session α} (h : Stays here inside program) :
    Stays here inside (liftM program : ExceptT ε Session α).run := h.map _

theorem throw (e : ε) : Stays here inside (MonadExcept.throw e : ExceptT ε Session α).run := .pure _

/-- A program without a terminal stays where it does on a disk. -/
theorem of_program (program : Program (Disk Content) ε α)
    (h : ∀ d, d.here = here → Within inside d (program.on d).2) :
    Stays here inside (StateT.lift program.run : Session (Except ε α)) := fun _ d hhere => h d hhere

/-! ## What programs do with a disk -/

theorem makeDirectory (path : String) :
    Stays here inside (Storage.makeDirectory path : ExceptT Fault Session Unit).run :=
  of_program (Storage.makeDirectory path) fun d _ =>
    .of_grows (Program.grows_makeDirectory path d)

theorem settle (path : String) (e : Fault) :
    Stays here inside (Disk.settle path e : ExceptT Fault Session Unit).run := by
  have hpresent : Stays here inside (Storage.isDirectory path : Session Bool) :=
    fun _ d _ => .refl inside d
  refine (lift hpresent).andThen fun present => ?_
  cases present with
  | true => exact .pure _
  | false => exact .throw e

theorem makeAlong (paths : List String) :
    Stays here inside (Disk.makeAlong paths : ExceptT Fault Session Unit).run := by
  induction paths with
  | nil => exact .pure _
  | cons path around ih =>
    refine (makeDirectory path).tryCatch fun e => ?_
    split
    · exact ih.andThen fun _ => (makeDirectory path).tryCatch fun e => settle path e
    · exact settle path e

theorem makeDirectories (path : String) :
    Stays here inside (Disk.makeDirectories path : ExceptT Fault Session Unit).run := makeAlong _

theorem write {path name : String} (content : Content)
    (hplace : ∀ d : Disk Content, d.here = here → d.place path = name :: inside) :
    Stays here inside (Storage.write path content : ExceptT Fault Session Unit).run := by
  refine of_program (Storage.write path content) fun d hhere => ?_
  rw [Bundle.on_write]
  cases hwrite : d.write path content with
  | ok d' => exact .of_write (hplace d hhere) hwrite
  | error e => exact .refl inside d

theorem printLine (line : String) : Stays here inside (Terminal.printLine line : Session Unit) :=
  fun _ d _ => .refl inside d

theorem draw (limit : Nat) : Stays here inside (Terminal.draw limit : Session Nat) :=
  fun _ d _ => .refl inside d

theorem mapM {program : α → Session β} (h : ∀ a, Stays here inside (program a)) (as : List α) :
    Stays here inside (as.mapM program) := by
  induction as with
  | nil => exact .pure _
  | cons a rest ih =>
    rw [List.mapM_cons]
    exact (h a).bind fun _ => ih.bind fun _ => .pure _

theorem pause (milliseconds : Nat) : Stays here inside (Terminal.pause milliseconds : Session Unit) :=
  fun _ d _ => .refl inside d

theorem play (platform : Platform) (clock : Nat) (sent : List Sent) :
    Stays here inside (Cli.play platform clock sent : Session Unit) := by
  induction sent generalizing clock with
  | nil => exact .pure _
  | cons first rest ih => exact (pause _).bind fun _ => (printLine _).bind fun _ => ih _

theorem forM_printLine (lines : List String) :
    Stays here inside (lines.forM Terminal.printLine : Session PUnit) := by
  induction lines with
  | nil => exact .pure _
  | cons line rest ih => exact (printLine line).bind fun _ => ih

end Session.Stays

/-! ## What commands write -/

section

variable {here inside : Location} {directory : String} {config : Config}

/-- Names that lead directly into a directory, on every disk with a working directory. -/
def LeadsInto (here inside : Location) (directory filename : String) : Prop :=
  ∀ d : Disk Content, d.here = here →
    d.place (Disk.Path.join directory filename) = filename :: inside

theorem leadsInto_of_isName (d : Disk Content) (directory : String) {filename : String}
    (h : Disk.Path.IsName filename) :
    LeadsInto d.here (d.place directory) directory filename := by
  intro d' hhere
  rw [Disk.place_join_name d' h, Disk.place_congr hhere]

theorem stays_writeArchive (files : Bundle.FileSet)
    (hplace : LeadsInto here inside directory (Archive.filename config)) :
    Session.Stays here inside
      (writeArchive files config directory : ExceptT Failure Session String).run := by
  rw [writeArchive_eq]
  exact ((Session.Stays.makeDirectories directory).adapt _).andThen fun _ =>
    ((Session.Stays.write _ hplace).adapt _).andThen fun _ => .pure _

theorem stays_deliverDownload {download : Bundle.Download}
    (hplace : LeadsInto here inside directory download.filename) :
    Session.Stays here inside
      (Bundle.deliverDownload directory download : ExceptT Fault Session String).run :=
  (Session.Stays.makeDirectories directory).andThen fun _ =>
    (Session.Stays.write _ hplace).andThen fun _ => .pure _

theorem stays_deliverDownloads {downloads : List Bundle.Download}
    (hplace : ∀ download ∈ downloads, LeadsInto here inside directory download.filename) :
    Session.Stays here inside
      (Bundle.deliverDownloads directory downloads : Session (List String × Option Fault)) := by
  induction downloads with
  | nil => exact .pure _
  | cons download rest ih =>
    obtain ⟨hfirst, hrest⟩ := List.forall_mem_cons.1 hplace
    refine (stays_deliverDownload hfirst).bind fun result => ?_
    cases result with
    | ok path => exact (ih hrest).bind fun _ => .pure _
    | error fault => exact .pure _

theorem stays_writeDownloads (files : Bundle.FileSet)
    (hplace : ∀ filename ∈ (Bundle.offers config).map (·.filename),
      LeadsInto here inside directory filename) :
    Session.Stays here inside
      (writeDownloads files config directory : ExceptT Failure Session (List String)).run := by
  rw [writeDownloads]
  cases hdownloads : Bundle.downloads files config with
  | error e => exact .throw _
  | ok downloads =>
    have hdelivered : ∀ download ∈ downloads, LeadsInto here inside directory download.filename :=
      fun download hmem => hplace _ (Bundle.filenames_of_gives
        (Bundle.gives_of_mapM_download hdownloads) ▸ List.mem_map_of_mem hmem)
    refine (Session.Stays.lift (stays_deliverDownloads hdelivered)).andThen fun result => ?_
    obtain ⟨paths, fault⟩ := result
    cases fault with
    | some fault => exact .throw _
    | none => exact .pure _

/-- The product of a build is called after the project. -/
theorem instructionsName_of_run {pacing : Build.Pacing} {draws : Stage → Nat}
    {patience : Build.Patience} {forest : Component.Forest} {target : Build.Target}
    {product : Build.Product}
    (h : (Build.run pacing draws patience forest config target).outcome = .ok product) :
    product.instructionsName = Build.Instructions.filename config := by
  cases hname : Naming.isPackageIdentifier config.packageName with
  | false =>
    rw [Build.run_of_not_identifier hname] at h
    cases h
  | true =>
    obtain ⟨files, text, -, -, hrun⟩ :=
      Build.run_of_identifier hname pacing draws patience forest target
    rw [hrun] at h
    cases h
    rfl

end

/-! ## Commands -/

section

variable {d : Disk Content} {lines : List String} {project text : String} {document : Document}

theorem run_andThen {program : ExceptT ε Session α} {more : α → ExceptT ε Session β} {a : α}
    {lines' : List String} {d' : Disk Content}
    (h : (program.run.run lines).run d = ((.ok a, lines'), d')) :
    ((program >>= more).run.run lines).run d = ((more a).run.run lines').run d' := by
  rw [ExceptT.run_bind, StateT.run_bind, StateT.run_bind, h]
  rfl

theorem run_load (hread : d.read project = .ok (.text text))
    (hload : Document.load text = .ok document) :
    ((load project : ExceptT Failure Session Document).run.run lines).run d =
      ((.ok document, lines), d) := by
  have hsource : (((ExceptT.adapt (Failure.unreadable project)
      (Storage.readText project : ExceptT Fault Session String) :
        ExceptT Failure Session String).run.run lines).run d) = ((.ok text, lines), d) := by
    have hon : Program.on d (Storage.readText project : Program (Disk Content) Fault String) =
        (.ok text, d) := by rw [Program.on_readText, hread]
    change (((Program.on d (Storage.readText project : Program (Disk Content) Fault String)).1.mapError
      (Failure.unreadable project), lines), (Program.on d (Storage.readText project)).2) = _
    rw [hon]
    rfl
  rw [load, run_andThen hsource, hload]
  rfl

/-- What comes behind loading a project that is there. -/
theorem behind_load (hread : d.read project = .ok (.text text))
    (hload : Document.load text = .ok document) (more : Document → ExceptT Failure Session α) :
    Session.behind lines d (load project >>= more : ExceptT Failure Session α).run =
      Session.behind lines d (more document).run := by
  rw [Session.behind, run_andThen (run_load hread hload), Session.behind]

/-- The names of the single files that commands write. -/
def filenames (config : Config) : List String :=
  Archive.filename config :: Build.Instructions.filename config ::
    (Bundle.offers config).map (·.filename)

theorem isName_filenames {config : Config} (hslash : '/' ∉ config.name.toList) :
    ∀ filename ∈ filenames config, Disk.Path.IsName filename := by
  have htoken : '/' ∉ config.token.toList := mt (Naming.slash_mem_token config.name).1 hslash
  have hnamed : ∀ ending ∈ ["_source.zip", "_build_instructions.md", "_App.tsx"],
      Disk.Path.IsName (config.token ++ ending) := by
    have hendings : (["_source.zip", "_build_instructions.md", "_App.tsx"].all fun ending =>
        !ending.toList.contains '/' && ending.toList.any (· != '.')) = true := by decide +kernel
    intro ending hmem
    have hending := List.all_eq_true.1 hendings ending hmem
    simp only [Bool.and_eq_true, Bool.not_eq_true', List.contains_eq_mem, decide_eq_false_iff_not,
      List.any_eq_true, bne_iff_ne] at hending
    exact Disk.Path.isName_append htoken hending.1 hending.2
  have hplain : ∀ filename ∈ [Bundle.Path.package, Bundle.Path.manifest, Bundle.Path.readme],
      Disk.Path.IsName filename :=
    fun filename h => Bundle.isName_primary filename (List.mem_cons_of_mem _ h)
  simp only [List.forall_mem_cons] at hnamed hplain
  obtain ⟨harchive, hinstructions, hentry, -⟩ := hnamed
  simp only [filenames, Bundle.offers, List.map_cons, List.map_nil, List.forall_mem_cons]
  exact ⟨harchive, hinstructions, hentry, hplain⟩

theorem within_exportProject (hread : d.read project = .ok (.text text))
    (hload : Document.load text = .ok document) (hslash : '/' ∉ document.config.name.toList)
    (directory : String) {mode : Mode} (hmode : mode ≠ .tree) :
    Within (d.place directory) d (Session.behind lines d
      (exportProject project directory mode : ExceptT Failure Session (List String)).run) := by
  have hplaces : ∀ filename ∈ filenames document.config,
      LeadsInto d.here (d.place directory) directory filename := fun filename h =>
    leadsInto_of_isName d directory (isName_filenames hslash filename h)
  rw [exportProject, behind_load hread hload]
  cases Bundle.assemble document.components document.config with
  | error e => exact Session.Stays.throw _ lines d rfl
  | ok files =>
    cases mode with
    | tree => exact absurd rfl hmode
    | zip =>
      have harchive := hplaces _ List.mem_cons_self
      exact (stays_writeArchive files harchive).andThen (fun _ => .pure _) lines d rfl
    | downloads =>
      have hoffers := fun filename h =>
        hplaces filename (List.mem_cons_of_mem _ (List.mem_cons_of_mem _ h))
      exact stays_writeDownloads files hoffers lines d rfl

theorem within_buildProject (hread : d.read project = .ok (.text text))
    (hload : Document.load text = .ok document) (hslash : '/' ∉ document.config.name.toList)
    (directory : String) (platform : Platform) (variant : Variant) (fast : Bool) :
    Within (d.place directory) d (Session.behind lines d
      (buildProject project directory platform variant fast : ExceptT Failure Session Unit).run) := by
  have hplace : LeadsInto d.here (d.place directory) directory
      (Build.Instructions.filename document.config) :=
    leadsInto_of_isName d directory
      (isName_filenames hslash _ (List.mem_cons_of_mem _ List.mem_cons_self))
  rw [buildProject, behind_load hread hload]
  refine Session.Stays.andThen (.lift (.mapM (fun _ => .draw _) _)) (fun draws => ?_) lines d rfl
  refine (Session.Stays.lift (.play platform 0 _)).andThen fun _ => ?_
  split
  · exact .throw _
  next product hproduct =>
    have hname := instructionsName_of_run hproduct
    refine Session.Stays.andThen (.adapt _ ((Session.Stays.makeDirectories directory).andThen
      fun _ => .write _ (hname ▸ hplace))) fun _ => ?_
    exact (Session.Stays.lift (.printLine _)).andThen fun _ => .lift (.printLine _)

end

/-- The entries of an archive are called after the project and lead inwards. -/
theorem inner_entries {forest : Component.Forest} {config : Config} {files : Bundle.FileSet}
    (hname : Disk.Path.IsName config.name) (hfiles : Bundle.assemble forest config = .ok files) :
    ∀ entry ∈ Archive.entries files config, Disk.Path.Inner entry.name := by
  have htoken : Disk.Path.IsName config.token := (Disk.Path.isName_token_iff config.name).2 hname
  intro entry hentry
  obtain ⟨⟨path, content⟩, hfile, rfl⟩ := List.mem_map.1 hentry
  have hpath := (inner_assembled hfiles).1 _ hfile
  have hnames : Disk.Path.names (Archive.entryName config path) =
      config.token :: Disk.Path.names path := by
    have hslash : (Archive.entryName config path).toList =
        config.token.toList ++ '/' :: path.toList := by simp [Archive.entryName]
    rw [Disk.Path.names_of_slash hslash, htoken.names_eq, List.singleton_append]
  refine ⟨?_, ?_⟩
  · obtain ⟨c, cs, hcs⟩ := List.exists_cons_of_ne_nil (mt String.toList_eq_nil_iff.1 htoken.ne_empty)
    have habsolute := htoken.isAbsolute_eq
    rw [Disk.Path.isAbsolute, hcs] at habsolute
    simpa [Disk.Path.isAbsolute, Archive.entryName, hcs] using habsolute
  · rw [hnames]
    exact List.forall_mem_cons.2 ⟨⟨htoken.ne_dot, htoken.ne_dots⟩, hpath.names⟩

/-- A project's token can name a file exactly if its name can. If the name has no slash, the archive,
the downloads and the instructions lie directly inside the directory that a command is given, and
the command changes nothing else on the disk but for directories that are missing; and the entries
of the archive lead inwards if the name can name a file. -/
theorem commands_within {d : Disk Content} {project text : String} {document : Document}
    (lines : List String) (directory : String) (hread : d.read project = .ok (.text text))
    (hload : Document.load text = .ok document) (hslash : '/' ∉ document.config.name.toList) :
    (Disk.Path.IsName document.config.token ↔ Disk.Path.IsName document.config.name) ∧
      (∀ filename ∈ filenames document.config,
        d.place (Disk.Path.join directory filename) = filename :: d.place directory) ∧
      (∀ mode, mode ≠ .tree → Within (d.place directory) d (Session.behind lines d
        (runCommand (.exportProject project directory mode) : ExceptT Failure Session Unit).run)) ∧
      (∀ platform variant fast, Within (d.place directory) d (Session.behind lines d
        (runCommand (.buildProject project directory platform variant fast) :
          ExceptT Failure Session Unit).run)) ∧
      (Disk.Path.IsName document.config.name → ∀ files,
        Bundle.assemble document.components document.config = .ok files →
          ∀ entry ∈ Archive.entries files document.config, Disk.Path.Inner entry.name) := by
  refine ⟨Disk.Path.isName_token_iff _, fun filename h => ?_, fun mode hmode => ?_,
    fun platform variant fast => ?_, fun hname files hfiles => inner_entries hname hfiles⟩
  · exact Disk.place_join_name d (isName_filenames hslash filename h) directory
  · exact Session.Stays.behind_andThen
      (within_exportProject hread hload hslash directory hmode) fun paths =>
        .lift (.forM_printLine paths)
  · exact within_buildProject hread hload hslash directory platform variant fast

/-- A project with a blank in its name. -/
def spaced : String :=
  "\x7b\"components\":[],\"config\":\x7b\"name\":\"My App\",\"packageName\":\"com.x.y\"," ++
    "\"version\":\"1\",\"minSdkVersion\":21,\"targetSdkVersion\":33\x7d\x7d"

/-- Its export, next to the file that it is read from. -/
theorem commands_within_spaced :
    let d : Disk Content := Disk.blank.put ["p.json", "work"] (.file (.text spaced))
    ∃ document, d.read "p.json" = .ok (.text spaced) ∧
      Document.load spaced = .ok document ∧ '/' ∉ document.config.name.toList ∧
      Within (d.place "out") d (Session.behind [] d
        (runCommand (.exportProject "p.json" "out" .zip) : ExceptT Failure Session Unit).run) := by
  intro d
  have hread : d.read "p.json" = .ok (.text spaced) := by decide +kernel
  have hchecked : ((Document.load spaced).toOption.any fun document =>
      decide ('/' ∉ document.config.name.toList)) = true := by decide +kernel
  cases hload : Document.load spaced with
  | error e =>
    rw [hload] at hchecked
    cases hchecked
  | ok document =>
    rw [hload] at hchecked
    have hslash : '/' ∉ document.config.name.toList := of_decide_eq_true hchecked
    have hwithin := (commands_within [] "out" hread hload hslash).2.2.1 .zip (by decide)
    exact ⟨document, hread, rfl, hslash, hwithin⟩

/-- A project that is called `../evil` is written next to the directory that it is exported to. -/
theorem slash_leads_outside :
    let config : Config := { Config.fresh with name := "../evil" }
    let d : Disk Content := Disk.blank
    ¬Disk.Path.IsName config.token ∧ d.place "out" = ["out", "work"] ∧
      d.place (Disk.Path.join "out" (Archive.filename config)) = ["evil_source.zip", "work"] ∧
      d.place (Disk.Path.join "out" (Build.Instructions.filename config)) =
        ["evil_build_instructions.md", "work"] ∧
      ".." ∈ Disk.Path.names (Archive.entryName config "App.tsx") := by
  decide

end AppExport.Cli
