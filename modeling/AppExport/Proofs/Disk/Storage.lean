/-
What programs leave on a disk: making directories only adds some, and writing changes the place of its
path only.
-/
import AppExport.Disk.Storage
import AppExport.Proofs.Disk.Place

namespace AppExport.Disk

variable {α β ε σ : Type}

/-! ## Items -/

theorem item?_put_self (d : Disk α) (around : Location) (name : String) (item : Item α) :
    (d.put (name :: around) item).item? (name :: around) = some item := by
  simp [put, item?]

theorem lookup_filter_ne {items : List (Location × Item α)} {location other : Location}
    (h : other ≠ location) : (items.filter (·.1 != location)).lookup other = items.lookup other := by
  induction items with
  | nil => rfl
  | cons entry items ih =>
    obtain ⟨l, item⟩ := entry
    by_cases hl : l = location
    · have hother : (other == l) = false := by simpa [hl] using h
      simp [hl, List.lookup_cons, ih, hl ▸ hother]
    · simp [hl, List.lookup_cons, ih]

theorem item?_put_of_ne (d : Disk α) {location other : Location} (h : other ≠ location)
    (item : Item α) : (d.put location item).item? other = d.item? other := by
  have hother : (other == location) = false := by simpa using h
  simp [put, item?, List.lookup_cons, hother, lookup_filter_ne h]

/-! ## Directories that are added -/

/-- Whether a disk is another one with directories added where nothing was. -/
structure Grows (d d' : Disk α) : Prop where
  here : d'.here = d.here
  items : ∀ location, d'.item? location = d.item? location ∨
    d.item? location = none ∧ d'.item? location = some .directory

namespace Grows

variable {d d' d'' : Disk α}

theorem refl (d : Disk α) : Grows d d := ⟨rfl, fun _ => .inl rfl⟩

theorem trans (h : Grows d d') (h' : Grows d' d'') : Grows d d'' := by
  refine ⟨h'.here.trans h.here, fun location => ?_⟩
  rcases h.items location with hsame | ⟨hnone, hdirectory⟩
  · rcases h'.items location with hsame' | ⟨hnone', hdirectory'⟩
    · exact .inl (hsame'.trans hsame)
    · exact .inr ⟨hsame ▸ hnone', hdirectory'⟩
  · rcases h'.items location with hsame' | ⟨hnone', -⟩
    · exact .inr ⟨hnone, hsame'.trans hdirectory⟩
    · rw [hdirectory] at hnone'
      cases hnone'

theorem keeps (h : Grows d d') : Keeps d d' := by
  refine ⟨h.here, fun location hd => ?_⟩
  rcases h.items location with hsame | ⟨hnone, -⟩
  · exact hsame.trans hd
  · rw [hd] at hnone
    cases hnone

end Grows

theorem find?_eq_ok_iff {d : Disk α} {location : Location} {name : String} {found : Option (Item α)} :
    d.find? location name = .ok found ↔
      name.utf8ByteSize ≤ longestName ∧ d.item? (name :: location) = found := by
  rw [find?]
  split
  next hlong => simp [Nat.not_le.2 hlong]
  next hshort => simp [Nat.not_lt.1 hshort]

theorem exists_of_makeDirectory {d d' : Disk α} {path : String} (h : d.makeDirectory path = .ok d') :
    ∃ around name, d.follow path = .ok (.name around name) ∧ name.utf8ByteSize ≤ longestName ∧
      d.item? (name :: around) = none ∧ d' = d.put (name :: around) .directory := by
  obtain ⟨e, hfollow, h⟩ := bind_eq_ok_iff.1 h
  cases e with
  | directory location => cases h
  | name around name =>
    obtain ⟨found, hfind, h⟩ := bind_eq_ok_iff.1 h
    obtain ⟨hshort, hitem⟩ := find?_eq_ok_iff.1 hfind
    cases found with
    | some item => cases h
    | none =>
      cases h
      exact ⟨around, name, hfollow, hshort, hitem, rfl⟩

theorem grows_makeDirectory {d d' : Disk α} {path : String} (h : d.makeDirectory path = .ok d') :
    Grows d d' := by
  obtain ⟨around, name, -, -, hnone, rfl⟩ := exists_of_makeDirectory h
  refine ⟨rfl, fun location => ?_⟩
  by_cases hlocation : location = name :: around
  · subst hlocation
    exact .inr ⟨hnone, item?_put_self d around name .directory⟩
  · exact .inl (item?_put_of_ne d hlocation _)

/-! ## Programs -/

/-- A program that changes a state and may fail. -/
abbrev Program (σ ε α : Type) : Type := ExceptT ε (StateM σ) α

/-- What a program makes in a state, and the state behind it. -/
def Program.on (s : σ) (program : Program σ ε α) : Except ε α × σ :=
  StateT.run (ExceptT.run program) s

namespace Program

variable {s : σ} {d : Disk Content}

theorem on_pure (a : α) : on s (pure a : Program σ ε α) = (.ok a, s) := rfl

theorem on_get : on s (get : Program σ ε σ) = (.ok s, s) := rfl

theorem on_bind (program : Program σ ε α) (more : α → Program σ ε β) :
    on s (program >>= more) =
      match on s program with
      | (.ok a, s') => on s' (more a)
      | (.error e, s') => (.error e, s') := by
  rw [on, on, ExceptT.run_bind, StateT.run_bind]
  cases h : StateT.run program.run s with
  | mk result s' => cases result <;> rfl

theorem on_tryCatch (program : Program σ ε α) (handler : ε → Program σ ε α) :
    on s (tryCatch program handler) =
      match on s program with
      | (.ok a, s') => (.ok a, s')
      | (.error e, s') => on s' (handler e) := by
  simp only [on, tryCatch, tryCatchThe, MonadExceptOf.tryCatch, ExceptT.tryCatch, ExceptT.run_mk,
    StateT.run_bind]
  cases hrun : StateT.run program.run s with
  | mk result s' =>
    rw [show StateT.run program s = (result, s') from hrun]
    cases result <;> rfl

/-- Programs that run one after the other and do not fail where `P` holds, which they keep. -/
theorem on_mapM {f : α → Program σ ε β} {g : α → β} {next : α → σ → σ} {P : σ → Prop} {as : List α}
    (h : ∀ a ∈ as, ∀ s, P s → on s (f a) = (.ok (g a), next a s) ∧ P (next a s)) (hs : P s) :
    on s (as.mapM f) = (.ok (as.map g), as.foldl (fun s a => next a s) s) := by
  induction as generalizing s with
  | nil => rfl
  | cons a as ih =>
    obtain ⟨hfirst, hothers⟩ := List.forall_mem_cons.1 h
    obtain ⟨ha, hnext⟩ := hfirst s hs
    rw [List.mapM_cons, on_bind, ha]
    dsimp only
    rw [on_bind, ih hothers hnext]
    rfl

theorem on_mapM_cons_congr {s' : σ} {f : α → Program σ ε β} {a : α} (h : on s (f a) = on s' (f a))
    (as : List α) : on s ((a :: as).mapM f) = on s' ((a :: as).mapM f) := by
  rw [List.mapM_cons, on_bind, on_bind, h]

theorem on_adapt {ε' : Type} (f : ε → ε') (program : Program σ ε α) :
    on s (ExceptT.adapt f program : Program σ ε' α) =
      ((on s program).1.mapError f, (on s program).2) := rfl

theorem on_of_on_adapt {ε' : Type} {f : ε → ε'} {program : Program σ ε α} {a : α} {s' : σ}
    (h : on s (ExceptT.adapt f program : Program σ ε' α) = (.ok a, s')) :
    on s program = (.ok a, s') := by
  rw [on_adapt] at h
  cases hrun : on s program with
  | mk result last =>
    rw [hrun] at h
    cases result with
    | ok b =>
      cases h
      rfl
    | error e => cases h

theorem on_change (operation : Disk Content → Except Fault (Disk Content)) :
    on d (change operation) =
      match operation d with
      | .ok d' => (.ok (), d')
      | .error e => (.error e, d) := by
  change on d (match operation d with
    | .ok d' => set d'
    | .error e => throw e) = _
  cases operation d <;> rfl

theorem on_readText (path : String) :
    on d (Storage.readText path : Program (Disk Content) Fault String) =
      (match d.read path with
        | .ok (.text s) => .ok s
        | .ok (.archive _) => .error .notUtf8
        | .error e => .error e, d) := by
  simp only [Storage.readText]
  rw [on_bind, on_get]
  dsimp only
  rcases d.read path with e | s | entries <;> rfl

/-- Whether a program only adds directories, also where it fails. -/
def Grows (program : Program (Disk Content) ε α) : Prop := ∀ d, Disk.Grows d (on d program).2

theorem Grows.pure (a : α) : Grows (pure a : Program (Disk Content) ε α) := fun d => .refl d

theorem Grows.bind {program : Program (Disk Content) ε α} {more : α → Program (Disk Content) ε β}
    (h : Grows program) (hmore : ∀ a, Grows (more a)) : Grows (program >>= more) := by
  intro d
  have hfirst := h d
  rw [on_bind]
  revert hfirst
  cases on d program with
  | mk result d' =>
    intro hfirst
    cases result with
    | ok a => exact hfirst.trans (hmore a d')
    | error e => exact hfirst

theorem Grows.adapt {ε' : Type} {program : Program (Disk Content) ε α} (f : ε → ε')
    (h : Grows program) : Grows (ExceptT.adapt f program : Program (Disk Content) ε' α) := h

theorem Grows.tryCatch {program : Program (Disk Content) ε α}
    {handler : ε → Program (Disk Content) ε α} (h : Grows program)
    (hhandler : ∀ e, Grows (handler e)) : Grows (tryCatch program handler) := by
  intro d
  have hfirst := h d
  rw [on_tryCatch]
  revert hfirst
  cases on d program with
  | mk result d' =>
    intro hfirst
    cases result with
    | ok a => exact hfirst
    | error e => exact hfirst.trans (hhandler e d')

theorem grows_makeDirectory (path : String) :
    Grows (Storage.makeDirectory path : Program (Disk Content) Fault Unit) := by
  intro d
  change Disk.Grows d (on d (change (Disk.makeDirectory path))).2
  rw [on_change]
  cases hmake : Disk.makeDirectory path d with
  | ok d' => exact Disk.grows_makeDirectory hmake
  | error e => exact .refl d

theorem on_settle (path : String) (e : Fault) :
    on d (settle path e : Program (Disk Content) Fault Unit) =
      (if d.isDirectory path then .ok () else .error e, d) := by
  change on d (if d.isDirectory path then Pure.pure () else throw e : Program (Disk Content) Fault Unit) = _
  cases d.isDirectory path <;> rfl

theorem grows_settle (path : String) (e : Fault) : Grows (settle path e : Program (Disk Content) Fault Unit) := by
  intro d
  rw [on_settle]
  exact .refl d

theorem grows_makeAlong (paths : List String) : Grows (makeAlong paths : Program (Disk Content) Fault Unit) := by
  induction paths with
  | nil => exact .pure ()
  | cons path around ih =>
    refine .tryCatch (grows_makeDirectory path) fun e => ?_
    split
    · exact .bind ih fun _ => .tryCatch (grows_makeDirectory path) fun e => grows_settle path e
    · exact grows_settle path e

theorem grows_makeDirectories (path : String) :
    Grows (makeDirectories path : Program (Disk Content) Fault Unit) := grows_makeAlong _

end Program

/-! ## Recordings -/

/-- A storage on which nothing fails: every file it reads holds the same text, and what is written to it
is kept in order. -/
structure Recording where
  source : String
  written : List (String × Content)

instance : Storage (StateM Recording) where
  readText _ := return (← get).source
  isDirectory _ := return true
  makeDirectory _ := return
  write path content := modify fun r => { r with written := r.written ++ [(path, content)] }

namespace Program

variable {r : Recording}

theorem on_write_recording (path : String) (content : Content) :
    on r (Storage.write path content : Program Recording Fault Unit) =
      (.ok (), { r with written := r.written ++ [(path, content)] }) := rfl

theorem on_makeDirectories_recording (path : String) :
    on r (makeDirectories path : Program Recording Fault Unit) = (.ok (), r) := by
  rw [makeDirectories]
  cases Path.ancestry path with
  | nil => rfl
  | cons path around =>
    rw [makeAlong, on_tryCatch]
    rfl

end Program

/-! ## Files that are written -/

theorem read_eq_ok_iff {d : Disk α} {path : String} {content : α} :
    d.read path = .ok content ↔ ∃ around name, d.follow path = .ok (.name around name) ∧
      name.utf8ByteSize ≤ longestName ∧ d.item? (name :: around) = some (.file content) ∧
      Path.endsInSlash path = false := by
  rw [read]
  constructor
  · intro h
    obtain ⟨e, hfollow, h⟩ := bind_eq_ok_iff.1 h
    cases e with
    | directory location => cases h
    | name around name =>
      obtain ⟨found, hfind, h⟩ := bind_eq_ok_iff.1 h
      obtain ⟨hshort, hitem⟩ := find?_eq_ok_iff.1 hfind
      split at h
      next => cases h
      next => cases h
      next found =>
        split at h
        next => cases h
        next hslash =>
          cases h
          exact ⟨around, name, hfollow, hshort, hitem, Bool.eq_false_iff.2 hslash⟩
  · rintro ⟨around, name, hfollow, hshort, hitem, hslash⟩
    have hfind := find?_eq_ok_iff.2 ⟨hshort, hitem⟩
    simp only [hfollow, bind, Except.bind, hfind, hslash, Bool.false_eq_true, if_false]

theorem exists_of_write {d d' : Disk α} {path : String} {content : α}
    (h : d.write path content = .ok d') : ∃ around name, d.follow path = .ok (.name around name) ∧
      name.utf8ByteSize ≤ longestName ∧ d.item? (name :: around) ≠ some .directory ∧
      Path.endsInSlash path = false ∧ d' = d.put (name :: around) (.file content) := by
  obtain ⟨e, hfollow, h⟩ := bind_eq_ok_iff.1 h
  cases e with
  | directory location => cases h
  | name around name =>
    simp only at h
    split at h
    next => cases h
    next hslash =>
      obtain ⟨found, hfind, h⟩ := bind_eq_ok_iff.1 h
      obtain ⟨hshort, hitem⟩ := find?_eq_ok_iff.1 hfind
      split at h
      next => cases h
      next hfound =>
        cases h
        exact ⟨around, name, hfollow, hshort, hitem ▸ hfound, Bool.eq_false_iff.2 hslash, rfl⟩

/-- Whether a disk is another one with some files written and otherwise at most directories added. -/
structure Wrote (files : List (String × α)) (d d' : Disk α) : Prop where
  keeps : Keeps d d'
  reads : ∀ file ∈ files, d'.read file.1 = .ok file.2
  others : ∀ location, (∀ file ∈ files, d.place file.1 ≠ location) →
    d'.item? location = d.item? location ∨
      d.item? location = none ∧ d'.item? location = some .directory

namespace Wrote

variable {d d' d'' : Disk α} {files : List (String × α)}

theorem of_grows (h : Grows d d') : Wrote [] d d' where
  keeps := h.keeps
  reads := by simp
  others location _ := h.items location

theorem of_write {path : String} {content : α} (h : d.write path content = .ok d') :
    Wrote [(path, content)] d d' := by
  obtain ⟨around, name, hfollow, hshort, hitem, hslash, rfl⟩ := exists_of_write h
  have hkeeps : Keeps d (d.put (name :: around) (.file content)) := by
    refine ⟨rfl, fun location hdirectory => ?_⟩
    have hne : location ≠ name :: around := by
      rintro rfl
      exact hitem hdirectory
    rw [item?_put_of_ne d hne]
    exact hdirectory
  refine ⟨hkeeps, ?_, fun location hplace => ?_⟩
  · simp only [List.mem_singleton, forall_eq]
    exact read_eq_ok_iff.2 ⟨around, name, hkeeps.follow hfollow, hshort, item?_put_self d _ _ _, hslash⟩
  · have hne := hplace (path, content) List.mem_cons_self
    rw [place_of_follow hfollow] at hne
    exact .inl (item?_put_of_ne d (Ne.symm hne) _)

/-- Files written to other places stay. -/
theorem append {more : List (String × α)} (h : Wrote files d d') (h' : Wrote more d' d'')
    (hplaces : ∀ file ∈ files, ∀ other ∈ more, d.place other.1 ≠ d.place file.1) :
    Wrote (files ++ more) d d'' where
  keeps := h.keeps.trans h'.keeps
  reads := by
    intro file hfile
    rcases List.mem_append.1 hfile with hfile | hfile
    · obtain ⟨around, name, hfollow, hshort, hitem, hslash⟩ := read_eq_ok_iff.1 (h.reads file hfile)
      refine read_eq_ok_iff.2 ⟨around, name, h'.keeps.follow hfollow, hshort, ?_, hslash⟩
      have hplace : ∀ other ∈ more, d'.place other.1 ≠ name :: around := by
        intro other hother
        rw [← place_of_follow hfollow, h.keeps.place, h.keeps.place]
        exact hplaces file hfile other hother
      rcases h'.others _ hplace with hsame | ⟨hnone, -⟩
      · exact hsame.trans hitem
      · rw [hitem] at hnone
        cases hnone
    · exact h'.reads file hfile
  others := by
    intro location hplace
    obtain ⟨hfiles, hmore⟩ := List.forall_mem_append.1 hplace
    have hmore' : ∀ other ∈ more, d'.place other.1 ≠ location := fun other hother => by
      rw [h.keeps.place]
      exact hmore other hother
    rcases h.others location hfiles with hsame | ⟨hnone, hdirectory⟩
    · rw [← hsame]
      exact h'.others location hmore'
    · rcases h'.others location hmore' with hsame' | ⟨hnone', -⟩
      · exact .inr ⟨hnone, hsame'.trans hdirectory⟩
      · rw [hdirectory] at hnone'
        cases hnone'

end Wrote

end AppExport.Disk
