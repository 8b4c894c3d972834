/-
Where paths lead. On a disk without links that depends on their names alone, as far as they lead
anywhere, so it stays the same while directories are only added.
-/
import AppExport.Disk.Basic
import AppExport.Proofs.Results
import AppExport.Proofs.Text.Pieces

namespace AppExport.Disk

variable {α : Type}

/-! ## Names of a path -/

namespace Path

/-- The names behind a slash follow those before it. -/
theorem names_of_slash {path first rest : String}
    (h : path.toList = first.toList ++ '/' :: rest.toList) : names path = names first ++ names rest := by
  simp only [names, pieces, h, Text.pieces_append_cons, List.map_append, List.filter_append]

theorem names_join {directory path : String} (h : isAbsolute path = false) :
    names (join directory path) = names directory ++ names path := by
  rw [join, h, Bool.false_or]
  split
  next hempty =>
    rw [String.isEmpty_iff.1 hempty]
    rfl
  next =>
    split
    next hslash =>
      rw [endsInSlash, decide_eq_true_eq] at hslash
      obtain ⟨init, hinit⟩ := List.getLast?_eq_some_iff.1 hslash
      have hdirectory : names directory = names (String.ofList init) ++ names "" :=
        names_of_slash (by rw [hinit]; simp)
      have hpath : names (directory ++ path) = names (String.ofList init) ++ names path :=
        names_of_slash (by rw [String.toList_append, hinit]; simp)
      rw [hdirectory, hpath]
      simp [names, pieces, Text.pieces]
    next => exact names_of_slash (by simp)

theorem isAbsolute_join {directory path : String} (h : isAbsolute path = false) :
    isAbsolute (join directory path) = isAbsolute directory := by
  rw [join, h, Bool.false_or]
  split
  next hempty => rw [h, String.isEmpty_iff.1 hempty]; rfl
  next hempty =>
    have hne : directory.toList ≠ [] := by simpa using hempty
    obtain ⟨c, cs, hcs⟩ := List.exists_cons_of_ne_nil hne
    split <;> simp [isAbsolute, hcs]

end Path

/-! ## Places -/

/-- Where a name leads from a directory. -/
def moved (location : Location) (name : String) : Location :=
  if name = "." then location else if name = ".." then location.tail else name :: location

/-- Where a path leads if it leads anywhere. -/
def place (d : Disk α) (path : String) : Location :=
  (Path.names path).foldl moved (if Path.isAbsolute path then [] else d.here)

theorem place_join (d : Disk α) {directory path : String} (h : Path.isAbsolute path = false) :
    d.place (Path.join directory path) = (Path.names path).foldl moved (d.place directory) := by
  rw [place, Path.names_join h, Path.isAbsolute_join h, List.foldl_append]
  rfl

/-- Names that are no dots lead inwards. -/
theorem foldl_moved {names : List String} (h : ∀ name ∈ names, name ≠ "." ∧ name ≠ "..")
    (location : Location) : names.foldl moved location = names.reverse ++ location := by
  induction names generalizing location with
  | nil => rfl
  | cons name names ih =>
    obtain ⟨⟨hdot, hdots⟩, hnames⟩ := List.forall_mem_cons.1 h
    rw [List.foldl_cons, moved, if_neg hdot, if_neg hdots, ih hnames]
    simp

/-- Whether a path leads inwards only. -/
structure Path.Inner (path : String) : Prop where
  relative : isAbsolute path = false
  names : ∀ name ∈ names path, name ≠ "." ∧ name ≠ ".."

theorem place_join_injective (d : Disk α) {directory first second : String}
    (hfirst : Path.Inner first) (hsecond : Path.Inner second)
    (h : d.place (Path.join directory first) = d.place (Path.join directory second)) :
    Path.names first = Path.names second := by
  rw [place_join d hfirst.relative, place_join d hsecond.relative, foldl_moved hfirst.names,
    foldl_moved hsecond.names] at h
  exact List.reverse_inj.1 (List.append_cancel_right h)

/-! ## Ways -/

theorem moved_of_step {d : Disk α} {location next : Location} {name : String}
    (h : d.step location name = .ok next) : moved location name = next := by
  rw [step] at h
  rw [moved]
  split at h
  next hdot => rw [if_pos hdot, Except.ok.inj h]
  next hdot =>
    rw [if_neg hdot]
    split at h
    next hdots => rw [if_pos hdots, Except.ok.inj h]
    next hdots =>
      obtain ⟨found, -, hfound⟩ := bind_eq_ok_iff.1 h
      rw [if_neg hdots]
      split at hfound
      next => exact Except.ok.inj hfound
      next => cases hfound
      next => cases hfound

theorem foldl_moved_of_foldlM {d : Disk α} {names : List String} {location next : Location}
    (h : names.foldlM d.step location = .ok next) : names.foldl moved location = next := by
  induction names generalizing location with
  | nil => exact Except.ok.inj h
  | cons name names ih =>
    rw [List.foldlM_cons] at h
    obtain ⟨middle, hstep, hothers⟩ := bind_eq_ok_iff.1 h
    rw [List.foldl_cons, moved_of_step hstep]
    exact ih hothers

/-- A way that ends at a name ends at the place of the path. -/
theorem place_of_follow {d : Disk α} {path name : String} {around : Location}
    (h : d.follow path = .ok (.name around name)) : d.place path = name :: around := by
  rw [follow] at h
  split at h
  next => cases h
  next =>
    split at h
    next => cases h
    next =>
      split at h
      next => cases h
      next =>
        dsimp only at h
        split at h
        next => cases h
        next last hlast =>
          obtain ⟨location, hway, hend⟩ := bind_eq_ok_iff.1 h
          split at hend
          next =>
            obtain ⟨_, -, hend⟩ := bind_eq_ok_iff.1 hend
            cases hend
          next hdots =>
            cases hend
            obtain ⟨init, hinit⟩ := List.getLast?_eq_some_iff.1 hlast
            rw [hinit, List.dropLast_concat] at hway
            obtain ⟨hdot, hdots⟩ := not_or.1 hdots
            rw [place, hinit, List.foldl_append, foldl_moved_of_foldlM hway]
            simp [moved, hdot, hdots]

/-! ## Ways that stay -/

/-- Whether every directory of a disk is one of another, which has the same working directory. -/
structure Keeps (d d' : Disk α) : Prop where
  here : d'.here = d.here
  directories : ∀ location, d.item? location = some .directory → d'.item? location = some .directory

namespace Keeps

variable {d d' : Disk α}

theorem trans {d'' : Disk α} (h : Keeps d d') (h' : Keeps d' d'') : Keeps d d'' :=
  ⟨h'.here.trans h.here, fun location hd => h'.directories location (h.directories location hd)⟩

theorem place (h : Keeps d d') (path : String) : d'.place path = d.place path := by
  rw [Disk.place, Disk.place, h.here]

theorem step (h : Keeps d d') {location next : Location} {name : String}
    (hstep : d.step location name = .ok next) : d'.step location name = .ok next := by
  rw [Disk.step] at hstep ⊢
  split
  next hdot => rwa [if_pos hdot] at hstep
  next hdot =>
    rw [if_neg hdot] at hstep
    split
    next hdots => rwa [if_pos hdots] at hstep
    next hdots =>
      rw [if_neg hdots] at hstep
      obtain ⟨found, hfind, hfound⟩ := bind_eq_ok_iff.1 hstep
      rw [find?] at hfind ⊢
      split at hfind
      next => cases hfind
      next hlength =>
        have hitem := Except.ok.inj hfind
        split at hfound
        next =>
          rw [if_neg hlength, h.directories _ hitem]
          exact hfound
        next => cases hfound
        next => cases hfound

theorem foldlM (h : Keeps d d') {names : List String} {location next : Location}
    (hway : names.foldlM d.step location = .ok next) : names.foldlM d'.step location = .ok next := by
  induction names generalizing location with
  | nil => exact hway
  | cons name names ih =>
    rw [List.foldlM_cons] at hway ⊢
    obtain ⟨middle, hstep, hothers⟩ := bind_eq_ok_iff.1 hway
    rw [h.step hstep]
    exact ih hothers

theorem follow (h : Keeps d d') {path : String} {e : End} (hfollow : d.follow path = .ok e) :
    d'.follow path = .ok e := by
  rw [Disk.follow] at hfollow ⊢
  split
  next hnul => rwa [if_pos hnul] at hfollow
  next hnul =>
    rw [if_neg hnul] at hfollow
    split
    next hempty => rwa [if_pos hempty] at hfollow
    next hempty =>
      rw [if_neg hempty] at hfollow
      split
      next hlong => rwa [if_pos hlong] at hfollow
      next hlong =>
        rw [if_neg hlong] at hfollow
        dsimp only at hfollow ⊢
        rw [h.here]
        split
        next hlast =>
          rw [hlast] at hfollow
          exact hfollow
        next last hlast =>
          rw [hlast] at hfollow
          obtain ⟨location, hway, hend⟩ := bind_eq_ok_iff.1 hfollow
          refine bind_eq_ok_iff.2 ⟨location, h.foldlM hway, ?_⟩
          split
          next hdots =>
            rw [if_pos hdots] at hend
            obtain ⟨inside, hstep, hinside⟩ := bind_eq_ok_iff.1 hend
            exact bind_eq_ok_iff.2 ⟨inside, h.step hstep, hinside⟩
          next hdots => rwa [if_neg hdots] at hend

end Keeps

end AppExport.Disk
