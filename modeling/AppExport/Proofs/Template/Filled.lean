/-
What the templates of the generated documents render as. Each of their tags is a path into the data,
or a helper before one, and rendering fills them in: the text of a template stays as it stands, a
tag gives way to what its words stand for, and what has been filled in is not read again.
-/
import AppExport.Template.Builtin
import Mathlib.Data.List.Basic

namespace AppExport.Template

open Json (Value)

/-! ## Filling in -/

/-- A stretch of a source: text, or the words between two opening and two closing braces. -/
inductive Stretch where
  | text (s : String)
  | field (words : String)
deriving DecidableEq

/-- The text that has been read, the last character first, if there is any. -/
def Stretch.ofText (done : List Char) : List Stretch :=
  if done.isEmpty then [] else [.text (String.ofList done.reverse)]

def stretchesFrom : (inField : Bool) → (done : List Char) → List Char → List Stretch
  | false, done, '\x7b' :: '\x7b' :: rest => Stretch.ofText done ++ stretchesFrom true [] rest
  | true, done, '\x7d' :: '\x7d' :: rest =>
    .field (String.ofList done.reverse) :: stretchesFrom false [] rest
  | inField, done, c :: rest => stretchesFrom inField (c :: done) rest
  | _, done, [] => Stretch.ofText done

/-- The stretches of a source, read once from the left to the right. -/
def stretches (source : List Char) : List Stretch := stretchesFrom false [] source

/-- What is filled in for the words of a field. -/
abbrev Fields := List (String × String)

def Stretch.filled (fields : Fields) : Stretch → List Char
  | text s => s.toList
  | field words => ((fields.lookup words).getD "").toList

/-- A source with its fields filled in. -/
def filled (fields : Fields) (source : String) : String :=
  String.ofList ((stretches source.toList).flatMap (·.filled fields))

-- what is filled in may look like a field and yet stays as it is
example : filled [("name", "\x7b\x7bb\x7d\x7d"), ("b", "no")] "# \x7b\x7bname\x7d\x7d, \x7b\x7bb\x7d\x7d" =
    "# \x7b\x7bb\x7d\x7d, no" := by
  decide

/-! ## Tags without constants -/

def Argument.path? : Argument → Option Path
  | path p => some p
  | constant _ => none

/-- The head of a tag and its arguments, all of which are paths. -/
abbrev Call := Path × List Path

def Call.words (call : Call) : String :=
  call.2.foldl (fun words p => words ++ " " ++ p.written) call.1.written

def Piece.call? : Piece → Option Call
  | text _ => none
  | tag _ head arguments => (arguments.mapM Argument.path?).map (head, ·)

/-- A piece as it stands in the source. -/
def Piece.stretch? : Piece → Option Stretch
  | text s => some (.text s)
  | tag mark head arguments => ((tag mark head arguments).call?).map fun call => .field call.words

theorem mapM_path?_eq_some {arguments : List Argument} {paths : List Path}
    (h : arguments.mapM Argument.path? = some paths) : arguments = paths.map .path := by
  induction arguments generalizing paths with
  | nil => simp_all
  | cons a rest ih =>
    rw [List.mapM_cons] at h
    obtain ⟨p, hp, h⟩ := Option.bind_eq_some_iff.1 h
    obtain ⟨others, hothers, h⟩ := Option.bind_eq_some_iff.1 h
    cases h
    cases a with
    | constant v => cases hp
    | path q =>
      cases hp
      rw [ih hothers, List.map_cons]

/-- A template renders as its source with the fields filled in, if every tag does. -/
theorem renderPieces_eq_filled {name : String} {data : Value} {fields : Fields}
    {template : Template} {stretches : List Stretch}
    (hstretches : template.mapM Piece.stretch? = some stretches)
    (hcalls : ∀ call ∈ template.filterMap Piece.call?,
      renderTag data call.1 (call.2.map .path) = .ok ((Stretch.field call.words).filled fields)) :
    renderPieces name data template = .ok (stretches.flatMap (·.filled fields)) := by
  induction template generalizing stretches with
  | nil =>
    cases hstretches
    rfl
  | cons piece rest ih =>
    rw [List.mapM_cons] at hstretches
    obtain ⟨first, hfirst, hstretches⟩ := Option.bind_eq_some_iff.1 hstretches
    obtain ⟨others, hothers, hstretches⟩ := Option.bind_eq_some_iff.1 hstretches
    cases hstretches
    have hrest := ih hothers fun call hcall => hcalls call (by
      obtain ⟨piece, hpiece, hcall⟩ := List.mem_filterMap.1 hcall
      exact List.mem_filterMap.2 ⟨piece, List.mem_cons_of_mem _ hpiece, hcall⟩)
    cases piece with
    | text s =>
      cases hfirst
      simp only [renderPieces, hrest, List.flatMap_cons, Stretch.filled]
      rfl
    | tag mark head arguments =>
      obtain ⟨call, hcall, rfl⟩ := Option.map_eq_some_iff.1 hfirst
      have htag := hcalls call (List.mem_filterMap.2 ⟨_, List.mem_cons_self, hcall⟩)
      obtain ⟨paths, hpaths, rfl⟩ := Option.map_eq_some_iff.1 hcall
      rw [← mapM_path?_eq_some hpaths] at htag
      simp only [renderPieces, htag, hrest, List.flatMap_cons]
      rfl

/-- Whether a source is a template whose tags make these calls and stand where its fields do. -/
def ReadsAs (source : String) (calls : List Call) : Prop :=
  ∃ template, ofText? source = some template ∧
    template.mapM Piece.stretch? = some (stretches source.toList) ∧
    template.filterMap Piece.call? = calls

theorem readsAs_of_pieces {source : String} {calls : List Call}
    (h : (piecesFrom? (source.toList.length + 1) .start source.toList).map
      (fun template => (template.mapM Piece.stretch?, template.filterMap Piece.call?)) =
        some (some (stretches source.toList), calls)) : ReadsAs source calls := by
  obtain ⟨template, htemplate, hparts⟩ := Option.map_eq_some_iff.1 h
  obtain ⟨hstretches, hcalls⟩ := Prod.mk.inj hparts
  exact ⟨template, htemplate, hstretches, hcalls⟩

theorem render_eq_filled {engine : Engine} {name source : String} {calls : List Call}
    {data : Value} {fields : Fields} (hreads : ReadsAs source calls)
    (hregistered : engine.templates.lookup name = ofText? source)
    (hcalls : ∀ call ∈ calls,
      renderTag data call.1 (call.2.map .path) = .ok ((Stretch.field call.words).filled fields)) :
    engine.render name data = .ok (filled fields source) := by
  obtain ⟨template, htemplate, hstretches, rfl⟩ := hreads
  rw [Engine.render, hregistered, htemplate]
  simp only [renderPieces_eq_filled hstretches hcalls]
  rfl

/-! ## What single tags show -/

/-- The path that is written as segments with dots between them. -/
def Path.dotted (segments : List String) : Path := ⟨false, segments, ".".intercalate segments⟩

/-- A path shows what it leads to. -/
theorem renderTag_dotted {data : Value} {fields : Fields} {segments : List String} {v : Value}
    (hhelper : helper? (Path.dotted segments).written = none)
    (hvalue : lookup? segments data = .ok (some v))
    (hshown : shown v = (Stretch.field (Path.dotted segments).written).filled fields) :
    renderTag data (Path.dotted segments) ([].map .path) =
      .ok ((Stretch.field (Call.words (Path.dotted segments, []))).filled fields) := by
  rw [renderTag, hhelper, List.map_nil, List.mapM_nil, Call.words, List.foldl_nil, ← hshown]
  simp only [Path.value?, Path.dotted, hvalue]
  rfl

/-- A helper gets what the path behind it leads to. -/
theorem renderTag_helper {data : Value} {fields : Fields} {name : String} {helper : Helper}
    {segments : List String} {v : Value}
    (hhelper : helper? (Path.dotted [name]).written = some helper)
    (hvalue : lookup? segments data = .ok (some v))
    (hshown : helper [v] = .ok ((Stretch.field
      (Call.words (Path.dotted [name], [Path.dotted segments]))).filled fields)) :
    renderTag data (Path.dotted [name]) ([Path.dotted segments].map .path) =
      .ok ((Stretch.field (Call.words (Path.dotted [name], [Path.dotted segments]))).filled fields) := by
  rw [renderTag, hhelper, ← hshown]
  simp only [List.map_cons, List.map_nil, List.mapM_cons, List.mapM_nil, Argument.value,
    Path.value?, Path.dotted, hvalue]
  rfl

end AppExport.Template
