/-
What making a directory is good for. Once that has gone well there is a directory, making it again
changes nothing, and files with proper names can be written in it, one after the other. The disk
behind that is known in full: under each name there is what was written last.
-/
import AppExport.Proofs.Disk.Storage
import AppExport.Proofs.Naming

namespace AppExport.Disk

variable {α : Type} {d d' : Disk α} {directory filename path : String}

/-! ## Directories -/

/-- Where a path starts. -/
def start (d : Disk α) (path : String) : Location := if Path.isAbsolute path then [] else d.here

/-- Whether something can be looked up below a path: there is a directory, or the path says nothing. -/
def Serves (d : Disk α) (directory : String) : Prop :=
  directory = "" ∨ d.isDirectory directory = true

theorem isDirectory_of_follow {location : Location} (h : d.follow path = .ok (.directory location)) :
    d.isDirectory path = true := by rw [isDirectory, h]

theorem isDirectory_of_find? {around : Location} {name : String}
    (h : d.follow path = .ok (.name around name)) (hfind : d.find? around name = .ok (some .directory)) :
    d.isDirectory path = true := by rw [isDirectory, h]; simp only [hfind]

theorem Keeps.isDirectory (h : Keeps d d') (hd : d.isDirectory path = true) :
    d'.isDirectory path = true := by
  rw [Disk.isDirectory] at hd
  split at hd
  next location hfollow => exact isDirectory_of_follow (h.follow hfollow)
  next around name hfollow =>
    split at hd
    next hfind =>
      obtain ⟨hshort, hitem⟩ := find?_eq_ok_iff.1 hfind
      exact isDirectory_of_find? (h.follow hfollow)
        (find?_eq_ok_iff.2 ⟨hshort, h.directories _ hitem⟩)
    next => cases hd
  next => cases hd

theorem Keeps.serves (h : Keeps d d') (hd : d.Serves directory) : d'.Serves directory :=
  hd.imp_right h.isDirectory

/-- A path that leads somewhere: its names up to the last one lead to directories. -/
theorem exists_of_follow {e : End} (h : d.follow path = .ok e) :
    '\x00' ∉ path.toList ∧ (Path.names path = [] ∨
      ∃ init last location, Path.names path = init ++ [last] ∧
        init.foldlM d.step (d.start path) = .ok location ∧
        ((∃ inside, d.step location last = .ok inside) ∨ e = .name location last)) := by
  rw [follow] at h
  split at h
  next => cases h
  next hnul =>
    refine ⟨hnul, ?_⟩
    split at h
    next => cases h
    next =>
      split at h
      next => cases h
      next =>
        dsimp only at h
        split at h
        next hnames => exact .inl (List.getLast?_eq_none_iff.1 hnames)
        next last hlast =>
          obtain ⟨location, hway, hend⟩ := bind_eq_ok_iff.1 h
          obtain ⟨init, hinit⟩ := List.getLast?_eq_some_iff.1 hlast
          rw [hinit, List.dropLast_concat] at hway
          refine .inr ⟨init, last, location, hinit, hway, ?_⟩
          split at hend
          next =>
            obtain ⟨inside, hstep, -⟩ := bind_eq_ok_iff.1 hend
            exact .inl ⟨inside, hstep⟩
          next =>
            cases hend
            exact .inr rfl

theorem step_of_find? {around : Location} {name : String}
    (h : d.find? around name = .ok (some .directory)) : ∃ inside, d.step around name = .ok inside := by
  rw [step]
  split
  · exact ⟨around, rfl⟩
  · split
    · exact ⟨around.tail, rfl⟩
    · exact ⟨name :: around, by rw [h]; rfl⟩

/-- All names of a directory's path lead to directories, the last one to itself. -/
theorem way_of_isDirectory (h : d.isDirectory path = true) :
    '\x00' ∉ path.toList ∧ (Path.names path).foldlM d.step (d.start path) = .ok (d.place path) := by
  have hway : '\x00' ∉ path.toList ∧
      ∃ inside, (Path.names path).foldlM d.step (d.start path) = .ok inside := by
    rw [isDirectory] at h
    cases hfollow : d.follow path with
    | error e =>
      rw [hfollow] at h
      cases h
    | ok e =>
      obtain ⟨hnul, hnames | ⟨init, last, location, hnames, hinit, hlast⟩⟩ := exists_of_follow hfollow
      · exact ⟨hnul, d.start path, by rw [hnames]; rfl⟩
      · have hstep : ∃ inside, d.step location last = .ok inside := by
          rcases hlast with hstep | rfl
          · exact hstep
          · rw [hfollow] at h
            dsimp only at h
            split at h
            next hfind => exact step_of_find? hfind
            next => cases h
        obtain ⟨inside, hstep⟩ := hstep
        refine ⟨hnul, inside, ?_⟩
        rw [hnames, List.foldlM_append]
        exact bind_eq_ok_iff.2 ⟨location, hinit, bind_eq_ok_iff.2 ⟨inside, hstep, rfl⟩⟩
  obtain ⟨hnul, inside, hfold⟩ := hway
  have hplace : d.place path = inside := foldl_moved_of_foldlM hfold
  exact ⟨hnul, hplace ▸ hfold⟩

/-! ## Names in a directory -/

/-- Whether a file with a name may be written in a directory: it is a name, neither it nor its path is
too long, and no directory is called so. -/
structure Accepts (d : Disk α) (directory filename : String) : Prop where
  isName : Path.IsName filename
  noNul : '\x00' ∉ filename.toList
  short : filename.utf8ByteSize ≤ longestName
  near : (Path.join directory filename).utf8ByteSize ≤ longestPath
  free : d.item? (filename :: d.place directory) ≠ some .directory

theorem accepts_iff : d.Accepts directory filename ↔
    Path.IsName filename ∧ '\x00' ∉ filename.toList ∧ filename.utf8ByteSize ≤ longestName ∧
      (Path.join directory filename).utf8ByteSize ≤ longestPath ∧
        d.item? (filename :: d.place directory) ≠ some .directory :=
  ⟨fun h => ⟨h.isName, h.noNul, h.short, h.near, h.free⟩,
    fun ⟨hname, hnul, hshort, hnear, hfree⟩ => ⟨hname, hnul, hshort, hnear, hfree⟩⟩

instance [DecidableEq α] (d : Disk α) (directory filename : String) :
    Decidable (d.Accepts directory filename) := decidable_of_iff _ accepts_iff.symm

theorem nul_not_mem_join (hdirectory : '\x00' ∉ directory.toList)
    (hfilename : '\x00' ∉ filename.toList) : '\x00' ∉ (Path.join directory filename).toList := by
  rw [Path.join]
  split
  · exact hfilename
  · split <;> simp [hdirectory, hfilename]

theorem utf8ByteSize_join_le (directory filename : String) :
    (Path.join directory filename).utf8ByteSize ≤
      directory.utf8ByteSize + 1 + filename.utf8ByteSize := by
  have hslash : "/".utf8ByteSize = 1 := by decide
  rw [Path.join]
  split
  · omega
  · split <;> simp only [String.utf8ByteSize_append, hslash] <;> omega

theorem join_ne_empty (h : filename ≠ "") : Path.join directory filename ≠ "" := by
  rw [Path.join]
  split
  · exact h
  · split <;> simp [h]

theorem endsInSlash_join (h : Path.IsName filename) :
    Path.endsInSlash (Path.join directory filename) = false := by
  have hne : filename.toList ≠ [] := by simpa using h.ne_empty
  have hlast : ∀ front : List Char, (front ++ filename.toList).getLast? ≠ some '/' := by
    intro front hslash
    rw [List.getLast?_append, List.getLast?_eq_some_getLast hne, Option.some_or] at hslash
    exact h.no_slash (Option.some.inj hslash ▸ List.getLast_mem hne)
  have hjoin : ∃ front : List Char,
      (Path.join directory filename).toList = front ++ filename.toList := by
    rw [Path.join]
    split
    · exact ⟨[], rfl⟩
    · split
      · exact ⟨directory.toList, String.toList_append⟩
      · exact ⟨directory.toList ++ ['/'], by simp⟩
  obtain ⟨front, hfront⟩ := hjoin
  rw [Path.endsInSlash, hfront]
  exact decide_eq_false (hlast front)

/-- A name in a directory is found there. -/
theorem follow_join (hserves : d.Serves directory) (hname : Path.IsName filename)
    (hnul : '\x00' ∉ filename.toList)
    (hnear : (Path.join directory filename).utf8ByteSize ≤ longestPath) :
    d.follow (Path.join directory filename) = .ok (.name (d.place directory) filename) := by
  have hway : '\x00' ∉ directory.toList ∧
      (Path.names directory).foldlM d.step (d.start directory) = .ok (d.place directory) := by
    rcases hserves with rfl | hdirectory
    · exact ⟨by simp, rfl⟩
    · exact way_of_isDirectory hdirectory
  have hrelative := hname.isAbsolute_eq
  rw [follow, if_neg (nul_not_mem_join hway.1 hnul), if_neg, if_neg (Nat.not_lt.2 hnear)]
  · dsimp only
    rw [Path.names_join hrelative, hname.names_eq, List.getLast?_concat, List.dropLast_concat,
      Path.isAbsolute_join hrelative]
    refine bind_eq_ok_iff.2 ⟨d.place directory, hway.2, ?_⟩
    rw [if_neg (not_or.2 ⟨hname.ne_dot, hname.ne_dots⟩)]
    rfl
  · simpa using join_ne_empty hname.ne_empty

theorem Accepts.follow (h : d.Accepts directory filename) (hserves : d.Serves directory) :
    d.follow (Path.join directory filename) = .ok (.name (d.place directory) filename) :=
  follow_join hserves h.isName h.noNul h.near

theorem write_join (hserves : d.Serves directory) (haccepts : d.Accepts directory filename)
    (content : α) : d.write (Path.join directory filename) content =
      .ok (d.put (filename :: d.place directory) (.file content)) := by
  refine bind_eq_ok_iff.2 ⟨_, haccepts.follow hserves, ?_⟩
  dsimp only
  rw [endsInSlash_join haccepts.isName, if_neg Bool.false_ne_true]
  refine bind_eq_ok_iff.2 ⟨_, find?_eq_ok_iff.2 ⟨haccepts.short, rfl⟩, ?_⟩
  split
  next hdirectory => exact absurd hdirectory haccepts.free
  next => rfl

/-- A file whose name is too long cannot be written. -/
theorem write_join_of_long (hserves : d.Serves directory) (hname : Path.IsName filename)
    (hnul : '\x00' ∉ filename.toList)
    (hnear : (Path.join directory filename).utf8ByteSize ≤ longestPath)
    (hlong : longestName < filename.utf8ByteSize) (content : α) :
    d.write (Path.join directory filename) content = .error .nameTooLong := by
  have hfind : d.find? (d.place directory) filename = .error .nameTooLong := if_pos hlong
  simp only [write, follow_join hserves hname hnul hnear, bind, Except.bind,
    endsInSlash_join hname, Bool.false_eq_true, if_false, hfind]

/-- Nor can it anywhere else, be it for its name or because the disk refuses its directory. -/
theorem exists_fault_of_long (hname : Path.IsName filename)
    (hlong : longestName < filename.utf8ByteSize) (d : Disk α) (directory : String) (content : α) :
    ∃ fault, d.write (Path.join directory filename) content = .error fault := by
  cases hwrite : d.write (Path.join directory filename) content with
  | error fault => exact ⟨fault, rfl⟩
  | ok d' =>
    obtain ⟨around, name, hfollow, hshort, -⟩ := exists_of_write hwrite
    have hplace : filename :: d.place directory = name :: around :=
      (place_join_name d hname directory).symm.trans (place_of_follow hfollow)
    obtain ⟨rfl, -⟩ := List.cons.inj hplace
    exact absurd hshort (Nat.not_le.2 hlong)

/-! ## Files in a directory -/

/-- Files written in a directory, one after the other. -/
def putAll (location : Location) (files : List (String × α)) (d : Disk α) : Disk α :=
  files.foldl (fun d file => d.put (file.1 :: location) (.file file.2)) d

theorem here_putAll (location : Location) (files : List (String × α)) (d : Disk α) :
    (d.putAll location files).here = d.here := by
  induction files generalizing d with
  | nil => rfl
  | cons file rest ih => exact ih _

theorem putAll_append (location : Location) (files more : List (String × α)) (d : Disk α) :
    d.putAll location (files ++ more) = (d.putAll location files).putAll location more :=
  List.foldl_append

theorem mem_of_lookup_reverse {files : List (String × α)} {name : String} {content : α}
    (h : files.reverse.lookup name = some content) : (name, content) ∈ files := by
  obtain ⟨before, after, hfiles, -⟩ := List.lookup_eq_some_iff.1 h
  rw [← List.mem_reverse, hfiles]
  exact List.mem_append_right _ List.mem_cons_self

/-- What was written last under a name, if all that was written under it is the same. -/
theorem lookup_reverse_of_unique {files : List (String × α)} {name : String} {content : α}
    (hmem : (name, content) ∈ files) (h : ∀ file ∈ files, file.1 = name → file.2 = content) :
    files.reverse.lookup name = some content := by
  cases hlookup : files.reverse.lookup name with
  | none =>
    have hne := List.lookup_eq_none_iff.1 hlookup _ (List.mem_reverse.2 hmem)
    simp at hne
  | some found => exact congrArg some (h _ (mem_of_lookup_reverse hlookup) rfl)

/-- Under a name there is what was written last under it. -/
theorem item?_putAll (location : Location) (files : List (String × α)) (d : Disk α) (name : String) :
    (d.putAll location files).item? (name :: location) =
      ((files.reverse.lookup name).map Item.file).or (d.item? (name :: location)) := by
  induction files generalizing d with
  | nil => rfl
  | cons file rest ih =>
    obtain ⟨first, content⟩ := file
    have hfirst : (d.put (first :: location) (.file content)).item? (name :: location) =
        ((List.lookup name [(first, content)]).map Item.file).or (d.item? (name :: location)) := by
      by_cases h : name = first
      · rw [h, item?_put_self, List.lookup_cons_self]
        rfl
      · have hbeq : (name == first) = false := beq_eq_false_iff_ne.2 h
        rw [item?_put_of_ne d (fun heq => h (List.cons.inj heq).1), List.lookup_cons, hbeq]
        rfl
    rw [putAll, List.foldl_cons, ← putAll, ih, hfirst, List.reverse_cons, List.lookup_append,
      Option.map_or, Option.or_assoc]

theorem item?_putAll_of_ne {location other : Location} {files : List (String × α)}
    (h : ∀ file ∈ files, other ≠ file.1 :: location) (d : Disk α) :
    (d.putAll location files).item? other = d.item? other := by
  induction files generalizing d with
  | nil => rfl
  | cons file rest ih =>
    obtain ⟨hfile, hrest⟩ := List.forall_mem_cons.1 h
    rw [putAll, List.foldl_cons, ← putAll, ih hrest, item?_put_of_ne d hfile]

theorem place_putAll (location : Location) (files : List (String × α)) (d : Disk α) (path : String) :
    (d.putAll location files).place path = d.place path := by
  rw [place, place, here_putAll]

theorem foldl_putAll {β : Type} (directory : String) (files : β → List (String × α)) (bs : List β)
    (d : Disk α) : bs.foldl (fun d b => d.putAll (d.place directory) (files b)) d =
      d.putAll (d.place directory) (bs.flatMap files) := by
  induction bs generalizing d with
  | nil => rfl
  | cons b bs ih => rw [List.foldl_cons, ih, place_putAll, ← putAll_append, List.flatMap_cons]

theorem keeps_putAll {location : Location} {files : List (String × α)}
    (h : ∀ file ∈ files, d.item? (file.1 :: location) ≠ some .directory) :
    Keeps d (d.putAll location files) := by
  refine ⟨here_putAll location files d, fun other hother => ?_⟩
  have hne : ∀ file ∈ files, other ≠ file.1 :: location := by
    rintro file hfile rfl
    exact h file hfile hother
  rw [item?_putAll_of_ne hne, hother]

theorem Accepts.putAll (h : d.Accepts directory filename) (location : Location)
    (files : List (String × α)) : (d.putAll location files).Accepts directory filename := by
  refine ⟨h.isName, h.noNul, h.short, h.near, ?_⟩
  rw [place_putAll]
  by_cases hlocation : ∃ file ∈ files, filename :: d.place directory = file.1 :: location
  · obtain ⟨file, -, heq⟩ := hlocation
    obtain ⟨-, rfl⟩ := List.cons.inj heq
    rw [item?_putAll]
    cases files.reverse.lookup filename with
    | none => exact h.free
    | some content => nofun
  · have hne : ∀ file ∈ files, filename :: d.place directory ≠ file.1 :: location :=
      fun file hfile heq => hlocation ⟨file, hfile, heq⟩
    rw [item?_putAll_of_ne hne]
    exact h.free

/-- Every file is read as it was written last. -/
theorem read_putAll {files : List (String × α)} {content : α} (hserves : d.Serves directory)
    (haccepts : ∀ file ∈ files, d.Accepts directory file.1)
    (hlast : files.reverse.lookup filename = some content) :
    (d.putAll (d.place directory) files).read (Path.join directory filename) = .ok content := by
  have hkeeps : Keeps d (d.putAll (d.place directory) files) :=
    keeps_putAll fun file hfile => (haccepts file hfile).free
  have hfile := haccepts _ (mem_of_lookup_reverse hlast)
  refine read_eq_ok_iff.2 ⟨d.place directory, filename, hkeeps.follow (hfile.follow hserves),
    hfile.short, ?_, endsInSlash_join hfile.isName⟩
  rw [item?_putAll, hlast]
  rfl

/-! ## Making directories -/

theorem isDirectory_of_makeDirectory (h : d.makeDirectory path = .ok d') :
    d'.isDirectory path = true := by
  have hkeeps := (grows_makeDirectory h).keeps
  obtain ⟨around, name, hfollow, hshort, -, rfl⟩ := exists_of_makeDirectory h
  exact isDirectory_of_find? (hkeeps.follow hfollow)
    (find?_eq_ok_iff.2 ⟨hshort, item?_put_self d around name .directory⟩)

/-- What is a directory already cannot be made one. -/
theorem makeDirectory_of_isDirectory (h : d.isDirectory path = true) :
    d.makeDirectory path = .error .taken := by
  rw [isDirectory] at h
  rw [makeDirectory]
  split at h
  next location hfollow => rw [hfollow]; rfl
  next around name hfollow =>
    split at h
    next hfind => simp only [hfollow, bind, Except.bind, hfind]
    next => cases h
  next => cases h

namespace Program

variable {d d' : Disk Content} {directory path : String} {paths : List String}

theorem on_makeDirectory (path : String) :
    on d (Storage.makeDirectory path : Program (Disk Content) Fault Unit) =
      match d.makeDirectory path with
      | .ok d' => (.ok (), d')
      | .error e => (.error e, d) := on_change _

/-- Once a directory has been made, or it is there in spite of a refusal, there is one. -/
theorem isDirectory_of_makeAlong
    (h : on d (makeAlong (path :: paths) : Program (Disk Content) Fault Unit) = (.ok (), d')) :
    d'.isDirectory path = true := by
  have hsettle {d : Disk Content} {e : Fault}
      (h : on d (settle path e : Program (Disk Content) Fault Unit) = (.ok (), d')) :
      d'.isDirectory path = true := by
    rw [on_settle] at h
    cases hdirectory : d.isDirectory path with
    | false =>
      rw [hdirectory] at h
      cases h
    | true =>
      rw [hdirectory] at h
      cases h
      exact hdirectory
  have hmake {d : Disk Content} {handler : Fault → Program (Disk Content) Fault Unit}
      (h : on d (tryCatch (Storage.makeDirectory path) handler) = (.ok (), d'))
      (hhandler : ∀ e, on d (handler e) = (.ok (), d') → d'.isDirectory path = true) :
      d'.isDirectory path = true := by
    rw [on_tryCatch, on_makeDirectory] at h
    cases hmade : d.makeDirectory path with
    | ok made =>
      rw [hmade] at h
      cases h
      exact isDirectory_of_makeDirectory hmade
    | error e =>
      rw [hmade] at h
      exact hhandler e h
  -- It is made at once, or behind the directories around it, or it is there already.
  rw [makeAlong] at h
  refine hmake h fun e h => ?_
  split at h
  next =>
    rw [on_bind] at h
    split at h
    next => exact hmake h fun e h => hsettle h
    next => cases h
  next => exact hsettle h

theorem on_makeAlong_of_isDirectory (h : d.isDirectory path = true) (paths : List String) :
    on d (makeAlong (path :: paths) : Program (Disk Content) Fault Unit) = (.ok (), d) := by
  rw [makeAlong, on_tryCatch, on_makeDirectory, makeDirectory_of_isDirectory h]
  dsimp only
  rw [if_neg (by decide), on_settle, h, if_pos rfl]

theorem ancestry_of_ne (h : directory ≠ "") :
    ∃ around, Path.ancestry directory = directory :: around := by
  have hpieces : (Path.pieces directory).length ≠ 0 := by
    rw [Path.pieces, List.length_map, Text.pieces_eq_splitOn, ne_eq, List.length_eq_zero_iff]
    exact List.splitOn_ne_nil _ _
  obtain ⟨steps, hsteps⟩ := Nat.exists_eq_succ_of_ne_zero hpieces
  rw [Path.ancestry, hsteps, Path.ancestryWithin, if_neg (by simpa using h)]
  exact ⟨_, rfl⟩

end Program

/-- Whether a directory can be made, with the missing ones around it, and what disk there is then. -/
def Makes (d : Disk Content) (directory : String) (made : Disk Content) : Prop :=
  Program.on d (makeDirectories directory : Program (Disk Content) Fault Unit) = (.ok (), made)

namespace Makes

variable {d made : Disk Content} {directory : String}

theorem serves (h : Makes d directory made) : made.Serves directory := by
  by_cases hempty : directory = ""
  · exact .inl hempty
  · obtain ⟨around, hancestry⟩ := Program.ancestry_of_ne hempty
    rw [Makes, makeDirectories, hancestry] at h
    exact .inr (Program.isDirectory_of_makeAlong h)

/-- Where there is a directory, nothing is made. -/
theorem of_serves (h : d.Serves directory) : Makes d directory d := by
  rcases h with rfl | hdirectory
  · rfl
  · by_cases hempty : directory = ""
    · rw [hempty]
      rfl
    · obtain ⟨around, hancestry⟩ := Program.ancestry_of_ne hempty
      rw [Makes, makeDirectories, hancestry]
      exact Program.on_makeAlong_of_isDirectory hdirectory around

end Makes

end AppExport.Disk
