/-
A set of files that is delivered whole stands below its directory, each file with its content, and
nothing else on the disk has changed but for directories that were missing.
-/
import AppExport.Bundle.Delivery
import AppExport.Proofs.Disk.Storage

namespace AppExport.Bundle

open Disk (Content Fault Program Recording Storage Wrote makeDirectories)

variable {d d' : Disk Content} {directory : String}

/-- Where a file of a set goes, and what it holds there. -/
def placed (directory : String) (file : File) : String × Content :=
  (Disk.Path.join directory file.1, .text file.2)

/-- The directories around a path. -/
def makeAround {m : Type → Type} [Monad m] [Storage m] (path : String) : ExceptT Fault m Unit :=
  match Disk.Path.parent? path with
  | some parent => makeDirectories parent
  | none => pure ()

theorem deliverFile_eq {m : Type → Type} [Monad m] [LawfulMonad m] [Storage m] (directory : String)
    (file : File) :
    (deliverFile directory file : ExceptT Fault m String) = do
      makeAround (placed directory file).1
      Storage.write (placed directory file).1 (placed directory file).2
      return (placed directory file).1 := by
  unfold deliverFile makeAround placed
  dsimp only
  cases Disk.Path.parent? (Disk.Path.join directory file.1) with
  | some parent => rfl
  | none => simp only [pure_bind]

/-! ## On a disk -/

theorem grows_makeAround (path : String) :
    Program.Grows (makeAround path : Program (Disk Content) Fault Unit) := by
  rw [makeAround]
  split
  · exact Program.grows_makeDirectories _
  · exact .pure ()

theorem on_write (path : String) (content : Content) :
    Program.on d (Storage.write path content : Program (Disk Content) Fault Unit) =
      match d.write path content with
      | .ok d' => (.ok (), d')
      | .error e => (.error e, d) :=
  Program.on_change _

theorem write_of_on_write {path : String} {content : Content}
    (h : Program.on d (Storage.write path content : Program (Disk Content) Fault Unit) = (.ok (), d')) :
    d.write path content = .ok d' := by
  rw [on_write] at h
  cases hwrite : d.write path content with
  | error e =>
    rw [hwrite] at h
    cases h
  | ok last =>
    rw [hwrite] at h
    cases h
    rfl

/-- A file that is written behind directories for it. -/
theorem wrote_behind {ε : Type} {make write : Program (Disk Content) ε Unit} {path found : String}
    {content : Content} (hmake : Program.Grows make)
    (hwrite : ∀ d d', Program.on d write = (.ok (), d') → d.write path content = .ok d')
    (h : Program.on d (do make; write; return path) = (.ok found, d')) :
    found = path ∧ Wrote [(path, content)] d d' := by
  have hgrows := hmake d
  rw [Program.on_bind] at h
  split at h
  next middle hmade =>
    rw [hmade] at hgrows
    rw [Program.on_bind] at h
    split at h
    next last hwritten =>
      cases h
      refine ⟨rfl, (Wrote.of_grows hgrows).append (.of_write (hwrite _ _ hwritten)) ?_⟩
      simp
    next => cases h
  next => cases h

theorem wrote_deliverFile {file : File} {path : String}
    (h : Program.on d (deliverFile directory file : Program (Disk Content) Fault String) = (.ok path, d')) :
    path = (placed directory file).1 ∧ Wrote [placed directory file] d d' := by
  rw [deliverFile_eq] at h
  exact wrote_behind (grows_makeAround _) (fun _ _ => write_of_on_write) h

theorem wrote_deliverFiles {files : List File} {paths : List String}
    (hinner : ∀ file ∈ files, Disk.Path.Inner file.1)
    (hnodup : (files.map fun file => Disk.Path.names file.1).Nodup)
    (h : Program.on d (files.mapM (deliverFile directory) : Program (Disk Content) Fault (List String)) =
      (.ok paths, d')) :
    paths = files.map (fun file => (placed directory file).1) ∧
      Wrote (files.map (placed directory)) d d' := by
  induction files generalizing d paths with
  | nil =>
    cases h
    exact ⟨rfl, .of_grows (.refl _)⟩
  | cons file files ih =>
    obtain ⟨hfile, hfiles⟩ := List.forall_mem_cons.1 hinner
    obtain ⟨hnew, hnodup'⟩ := List.nodup_cons.1 hnodup
    rw [List.mapM_cons, Program.on_bind] at h
    split at h
    next path middle hfirst =>
      rw [Program.on_bind] at h
      split at h
      next others last hothers =>
        cases h
        obtain ⟨rfl, hwrote⟩ := wrote_deliverFile hfirst
        obtain ⟨rfl, hwrote'⟩ := ih hfiles hnodup' hothers
        refine ⟨rfl, hwrote.append hwrote' ?_⟩
        intro placed₁ hplaced₁ placed₂ hplaced₂ hplace
        obtain rfl := List.mem_singleton.1 hplaced₁
        obtain ⟨other, hother, rfl⟩ := List.mem_map.1 hplaced₂
        have hnames := Disk.place_join_injective d (hfiles other hother) hfile hplace
        exact hnew (List.mem_map.2 ⟨other, hother, hnames⟩)
      next => cases h
    next => cases h

/-! ## On a recording -/

theorem on_makeAround_recording (path : String) (r : Recording) :
    Program.on r (makeAround path : Program Recording Fault Unit) = (.ok (), r) := by
  rw [makeAround]
  split
  · exact Program.on_makeDirectories_recording _
  · rfl

theorem on_deliverFile_recording (directory : String) (file : File) (r : Recording) :
    Program.on r (deliverFile directory file : Program Recording Fault String) =
      (.ok (placed directory file).1, { r with written := r.written ++ [placed directory file] }) := by
  rw [deliverFile_eq, Program.on_bind, on_makeAround_recording]
  dsimp only
  rw [Program.on_bind, Program.on_write_recording]
  rfl

theorem on_deliverFiles_recording (directory : String) (files : List File) (r : Recording) :
    Program.on r (files.mapM (deliverFile directory) : Program Recording Fault (List String)) =
      (.ok (files.map fun file => (placed directory file).1),
        { r with written := r.written ++ files.map (placed directory) }) := by
  induction files generalizing r with
  | nil => simp [Program.on_pure]
  | cons file files ih =>
    rw [List.mapM_cons, Program.on_bind, on_deliverFile_recording]
    dsimp only
    rw [Program.on_bind, ih]
    simp [Program.on_pure]

end AppExport.Bundle
