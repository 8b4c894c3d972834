/-
What the command for downloads does with the files of an app. If one of the primary files is missing
it says which, and nothing is written. Otherwise all of them are, unless the disk refuses one. Every
disk refuses an entry module whose name is too long for a file.
-/
import AppExport.Cli.Run
import AppExport.Proofs.Bundle.Download
import AppExport.Proofs.Naming.Token

namespace AppExport.Cli

open AppExport.Bundle (Download FileSet MissingFile Offered delivery held primaryPaths)
open Disk (Content Fault Program Storage Wrote)

variable {files : FileSet} {config : Config} {downloads : List Download} {directory : String}
  {d made : Disk Content}

/-- Without all of the primary files nothing happens, whatever the storage. -/
theorem on_writeDownloads_of_missing {σ : Type} [Storage (StateM σ)] {e : MissingFile}
    (h : Bundle.downloads files config = .error e) (s : σ) (directory : String) :
    Program.on s (writeDownloads files config directory : Program σ Failure (List String)) =
      (.error (.missing e), s) := by
  rw [writeDownloads, h]
  rfl

theorem on_writeDownloads (h : Bundle.downloads files config = .ok downloads) (d : Disk Content)
    (directory : String) :
    Program.on d (writeDownloads files config directory : Program (Disk Content) Failure _) =
      match delivery directory downloads d with
      | ((paths, none), d') => (.ok paths, d')
      | ((_, some fault), d') => (.error (.file fault), d') := by
  rw [writeDownloads, h]
  dsimp only
  have hdelivered : Program.on d (liftM (Bundle.deliverDownloads directory downloads :
      StateM (Disk Content) _) : Program (Disk Content) Failure (List String × Option Fault)) =
        (.ok (delivery directory downloads d).1, (delivery directory downloads d).2) := rfl
  rw [Program.on_bind, hdelivered]
  obtain ⟨⟨paths, _ | fault⟩, d'⟩ := delivery directory downloads d <;> rfl

/-- Where a directory can be made that accepts their names, downloads are written in it. -/
theorem on_writeDownloads_of_made (h : Bundle.downloads files config = .ok downloads)
    (hmake : Disk.Makes d directory made)
    (haccepts : ∀ download ∈ downloads, made.Accepts directory download.filename) :
    Program.on d (writeDownloads files config directory : Program (Disk Content) Failure _) =
      (.ok (downloads.map fun download => Disk.Path.join directory download.filename),
        made.putAll (made.place directory) (held downloads)) := by
  obtain ⟨entry, rest, rfl, -⟩ := (Bundle.offered_of_downloads h).exists_entry
  rw [on_writeDownloads h, Bundle.delivery_of_made rest hmake,
    Bundle.delivery_of_accepts hmake.serves haccepts]
  rfl

/-- With a token without slashes that leaves no room for an ending in the name of a file, the entry
module is refused on every disk, and nothing is written behind it. -/
theorem on_writeDownloads_of_long (h : Bundle.downloads files config = .ok downloads)
    (hslash : '/' ∉ config.token.toList) (hlong : 247 < config.token.utf8ByteSize)
    (d : Disk Content) (directory : String) : ∃ fault d',
      Program.on d (writeDownloads files config directory : Program (Disk Content) Failure _) =
        (.error (.file fault), d') ∧ Disk.Grows d d' := by
  obtain ⟨entry, rest, rfl, hentry⟩ := (Bundle.offered_of_downloads h).exists_entry
  have hname : Disk.Path.IsName entry.filename := hentry ▸ Bundle.isName_entry hslash
  have hending : "_App.tsx".utf8ByteSize = 8 := by decide
  have hsize : Disk.longestName < entry.filename.utf8ByteSize := by
    rw [hentry, String.utf8ByteSize_append, hending, Disk.longestName]
    omega
  obtain ⟨fault, d', hdelivery, hgrows⟩ := Bundle.delivery_refused
    (fun d => Disk.exists_fault_of_long hname hsize d directory (.text entry.content)) rest d
  exact ⟨fault, d', by rw [on_writeDownloads h, hdelivery], hgrows⟩

/-- What it is to write downloads in a directory. Where it ends well every one of them is a file with
its content, and nothing else has changed but for directories that were missing; and it ends well
where the directory can be made and then accepts their names. It ends well nowhere, and leaves at most
new directories, if the project's token has no slash and no room is left for an ending in the name of a
file. -/
structure Written (files : FileSet) (config : Config) (directory : String)
    (downloads : List Download) : Prop where
  wrote : ∀ (d d' : Disk Content) (paths : List String),
    Program.on d (writeDownloads files config directory : Program (Disk Content) Failure _) =
      (.ok paths, d') →
    paths = downloads.map (fun download => Disk.Path.join directory download.filename) ∧
      Wrote (downloads.map fun download =>
        (Disk.Path.join directory download.filename, .text download.content)) d d'
  accepted : ∀ d made : Disk Content, Disk.Makes d directory made →
    (∀ download ∈ downloads, made.Accepts directory download.filename) →
    ∃ paths d', Program.on d (writeDownloads files config directory :
      Program (Disk Content) Failure _) = (.ok paths, d')
  refused : '/' ∉ config.token.toList → 247 < config.token.utf8ByteSize → ∀ d : Disk Content,
    ∃ fault d', Program.on d (writeDownloads files config directory :
      Program (Disk Content) Failure _) = (.error (.file fault), d') ∧ Disk.Grows d d'

theorem written_of_downloads (h : Bundle.downloads files config = .ok downloads)
    (directory : String) : Written files config directory downloads where
  wrote d d' paths hrun := by
    rw [on_writeDownloads h] at hrun
    split at hrun
    next hdelivery =>
      cases hrun
      have hoffered := Bundle.offered_of_downloads h
      exact Bundle.wrote_delivery (Bundle.places_of_offered hoffered d directory) hdelivery
    next => cases hrun
  accepted d made hmake haccepts := ⟨_, _, on_writeDownloads_of_made h hmake haccepts⟩
  refused hslash hlong d := on_writeDownloads_of_long h hslash hlong d directory

/-- The downloads of a set are decided by what it lacks. If all primary files are there they are
offered in their order, with their contents and under names that all differ, and written side by
side. If not, the first one that is missing is reported, and nothing is written. An assembled app
lacks none. -/
theorem writeDownloads_decides (files : FileSet) (config : Config) :
    ((∃ downloads, Bundle.downloads files config = .ok downloads) ↔
        ∀ path ∈ primaryPaths, path ∈ files.paths) ∧
      (∀ downloads, Bundle.downloads files config = .ok downloads →
        Offered files config downloads ∧ ∀ directory, Written files config directory downloads) ∧
      (∀ e, Bundle.downloads files config = .error e →
        primaryPaths.find? (· ∉ files.paths) = some e.path ∧
          ∀ (σ : Type) [Storage (StateM σ)] (s : σ) (directory : String),
            Program.on s (writeDownloads files config directory : Program σ Failure _) =
              (.error (.missing e), s)) ∧
      ∀ forest, ∃ assembled downloads, Bundle.assemble forest config = .ok assembled ∧
        Bundle.downloads assembled config = .ok downloads := by
  refine ⟨Bundle.exists_downloads_iff, fun downloads h => ?_, fun e h => ?_, fun forest => ?_⟩
  · exact ⟨Bundle.offered_of_downloads h, written_of_downloads h⟩
  · exact ⟨Bundle.downloads_eq_error_iff.1 h, fun σ _ => on_writeDownloads_of_missing h⟩
  · obtain ⟨assembled, hassembled, hdownloads⟩ := Bundle.exists_assembled forest config
    exact ⟨assembled, _, hassembled, hdownloads⟩

/-- A set of the primary files only. -/
def primaryFiles : FileSet :=
  .ofList [("App.tsx", "a"), ("package.json", "b"), ("app.json", "c"), ("README.md", "d")]

/-- A disk with nothing but a directory in its working directory. -/
def blankOut : Disk Content := Disk.blank.put ["out", "work"] .directory

theorem makes_blankOut : Disk.Makes Disk.blank "out" blankOut := rfl

/-- They are written on a disk with nothing else on it. -/
theorem writeDownloads_decides_blank :
    ∃ paths d', Program.on Disk.blank (writeDownloads primaryFiles .fresh "out" :
        Program (Disk Content) Failure _) = (.ok paths, d') ∧
      d'.read "out/My_App_App.tsx" = .ok (.text "a") := by
  have hdownloads : Bundle.downloads primaryFiles .fresh = .ok
      [⟨"My_App_App.tsx", "text/plain", "a"⟩, ⟨"package.json", "application/json", "b"⟩,
        ⟨"app.json", "application/json", "c"⟩, ⟨"README.md", "text/markdown", "d"⟩] := by
    decide +kernel
  have hwritten := ((writeDownloads_decides primaryFiles .fresh).2.1 _ hdownloads).2 "out"
  obtain ⟨paths, d', hrun⟩ := hwritten.accepted _ _ makes_blankOut (by decide +kernel)
  have hread : d'.read (Disk.Path.join "out" "My_App_App.tsx") = .ok (.text "a") :=
    (hwritten.wrote _ _ _ hrun).2.reads (Disk.Path.join "out" "My_App_App.tsx", .text "a") (.head _)
  have hpath : Disk.Path.join "out" "My_App_App.tsx" = "out/My_App_App.tsx" := by decide +kernel
  exact ⟨paths, d', hrun, hpath ▸ hread⟩

/-- So many letters. -/
def letters (n : Nat) : String := String.ofList (List.replicate n 'a')

theorem not_mem_letters {c : Char} (h : c ≠ 'a') (n : Nat) : c ∉ (letters n).toList := by
  rw [letters, String.toList_ofList]
  exact fun hc => h (List.eq_of_mem_replicate hc)

theorem token_letters (n : Nat) : Naming.token (letters n) = letters n := by
  rw [Naming.token, Text.underscored, letters, String.toList_ofList,
    Text.underscoredChars_of_forall_not_blank]
  intro c hc
  rw [List.eq_of_mem_replicate hc]
  decide

/-- A project can have all downloads and a name that leaves no room for an ending in the name of a
file. Its entry module is refused then. -/
theorem long_name_refused :
    let config : Config := { Config.fresh with name := letters 248 }
    (∃ downloads, Bundle.downloads primaryFiles config = .ok downloads) ∧
      (Program.on Disk.blank (writeDownloads primaryFiles config "out" :
        Program (Disk Content) Failure _)).1 = .error (.file .nameTooLong) := by
  intro config
  obtain ⟨downloads, hdownloads⟩ :
      ∃ downloads, Bundle.downloads primaryFiles config = .ok downloads :=
    Bundle.exists_downloads_iff.2 (by decide)
  obtain ⟨entry, rest, rfl, hentry⟩ := (Bundle.offered_of_downloads hdownloads).exists_entry
  -- The token is known without running over its letters one by one.
  rw [show config.token = letters 248 from token_letters 248] at hentry
  have hname : Disk.Path.IsName entry.filename :=
    hentry ▸ Bundle.isName_entry (not_mem_letters (by decide) 248)
  have hnul : '\x00' ∉ entry.filename.toList := by
    rw [hentry, String.toList_append, List.mem_append, not_or]
    exact ⟨not_mem_letters (by decide) 248, by decide⟩
  have hsize : entry.filename.utf8ByteSize = 256 := by
    rw [hentry]
    decide +kernel
  have hlong : Disk.longestName < entry.filename.utf8ByteSize := hsize ▸ by decide
  have hnear : (Disk.Path.join "out" entry.filename).utf8ByteSize ≤ Disk.longestPath := by
    refine (Disk.utf8ByteSize_join_le "out" entry.filename).trans ?_
    rw [hsize]
    decide
  have hrefused := Bundle.delivery_of_long makes_blankOut.serves hname hnul hnear hlong rest
  refine ⟨⟨_, hdownloads⟩, ?_⟩
  rw [on_writeDownloads hdownloads, Bundle.delivery_of_made rest makes_blankOut, hrefused]

end AppExport.Cli
