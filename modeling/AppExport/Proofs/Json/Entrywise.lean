/-
Records that are read from an object value by value. Any two of them pass the same places in the text:
behind every member their drafts are what they make of the members so far, and all that a record has
to say is what it makes of one more.
-/
import AppExport.Proofs.Json.Object

namespace AppExport.Json

variable {α σ : Type} {room : Nat}

/-! ## Members in the order of the text -/

/-- The members of an object as they stand there, a repeated key with each of its values. -/
def memberRecord : Record Entries Entries where
  label := "a map"
  fields := []
  others := some fun key es room c => do
    let (v, c) ← value room c
    .ok (es ++ [(key, v)], c)
  positional := false
  start := []
  finish := some

def members : Decoder Entries := memberRecord.decoder

/-- The members of an object from some place on, and the place behind its closing brace. -/
inductive ReadsMembers (room : Nat) : (rounds : Nat) → (first : Bool) → Cursor → Entries → Cursor → Prop
  | none {rounds : Nat} {first : Bool} {c behind : Cursor}
    (hkey : nextKey first c = .ok (none, behind)) : ReadsMembers room (rounds + 1) first c [] behind
  | cons {rounds : Nat} {first : Bool} {c c₁ c₂ c₃ behind : Cursor} {key : String} {v : Value}
    {es : Entries} (hkey : nextKey first c = .ok (some key, c₁)) (hcolon : colon c₁ = .ok ((), c₂))
    (hvalue : value room c₂ = .ok (v, c₃)) (h : ReadsMembers room rounds false c₃ es behind) :
    ReadsMembers room (rounds + 1) first c ((key, v) :: es) behind

theorem exists_readsMembers {rounds : Nat} {first : Bool} {acc last : Entries} {c behind : Cursor}
    (h : entriesFrom (entryOf (value room)) rounds first acc c = .ok (last, behind)) :
    ∃ es, ReadsMembers room rounds first c es behind := by
  rw [entriesFrom_eq_ok_iff] at h
  induction h with
  | closing hkey => exact ⟨[], .none hkey⟩
  | @entry _ _ _ _ _ _ _ _ _ key hkey hentry _ ih =>
    obtain ⟨⟨_, c₂⟩, hcolon, hentry⟩ := bind_eq_ok_iff.1 hentry
    obtain ⟨⟨v, c₃⟩, hvalue, hnext⟩ := bind_eq_ok_iff.1 hentry
    cases hnext
    obtain ⟨es, hes⟩ := ih
    exact ⟨(key, v) :: es, .cons hkey hcolon hvalue hes⟩

/-! ## What a record makes of them -/

/-- Whether a reader ends behind some members with what is made of them, or with a fault. -/
def ComesTo (of : Entries → σ) (behind : Cursor) (read : Except Fault (σ × Cursor)) :
    Except Cause Entries → Prop
  | .ok es => read = .ok (of es, behind)
  | .error cause => ∃ offset, read = .error ⟨cause, offset⟩

/-- Whether the draft of a record is always what is made of the members so far, and one more member
is refused for its key or reads as a value does. -/
structure Record.Follows (r : Record σ α) (of : Entries → σ)
    (next : Entries → String × Value → Except Cause Entries) : Prop where
  start : r.start = of []
  entry : ∀ ⦃room v c c₁ c₂⦄ (es : Entries) (key : String), colon c = .ok ((), c₁) →
    value room c₁ = .ok (v, c₂) → ComesTo of c₂ (r.entry room key (of es) c) (next es (key, v))

variable {r : Record σ α} {of : Entries → σ} {next : Entries → String × Value → Except Cause Entries}

theorem ReadsMembers.comesTo {rounds : Nat} {first : Bool} {c behind : Cursor} {es : Entries}
    (h : ReadsMembers room rounds first c es behind) (hr : r.Follows of next) (before : Entries) :
    ComesTo of behind (entriesFrom (r.entry room) rounds first (of before) c)
      (es.foldlM next before) := by
  induction h generalizing before with
  | none hkey =>
    simp only [entriesFrom, hkey, bind, Except.bind, List.foldlM_nil, pure, Except.pure, ComesTo]
  | @cons rounds first c c₁ c₂ c₃ behind key v es hkey hcolon hvalue _ ih =>
    have hentry := hr.entry before key hcolon hvalue
    rw [List.foldlM_cons, entriesFrom, hkey]
    cases hnext : next before (key, v) with
    | error cause =>
      rw [hnext] at hentry
      obtain ⟨offset, hfault⟩ := hentry
      exact ⟨offset, by simp only [bind, Except.bind, hfault]⟩
    | ok following =>
      rw [hnext] at hentry
      have hread : r.entry room key (of before) c₁ = .ok (of following, c₃) := hentry
      simp only [bind, Except.bind, hread]
      exact ih following

/-- One list of members stands for an object, whatever record is read from it. -/
theorem exists_members {c behind : Cursor} {entries : Entries}
    (h : value room c = .ok (.object entries, behind)) :
    ∃ es : Entries, ∀ {σ α : Type} {r : Record σ α} {of : Entries → σ}
      {next : Entries → String × Value → Except Cause Entries}, r.Follows of next →
        ComesTo of behind (r.draft room c) (es.foldlM next []) := by
  have hcomes := comes_of_value_object h
  cases room with
  | zero =>
    rw [value, (valueWith_brace hcomes).1] at h
    cases h
  | succ inner =>
    rw [value, (valueWith_brace hcomes).2] at h
    obtain ⟨read, hentries, hread⟩ := map_eq_ok_iff.1 h
    cases hread
    obtain ⟨es, hes⟩ := exists_readsMembers hentries
    refine ⟨es, fun {σ α r of next} hr => ?_⟩
    have hdraft : r.draft (inner + 1) c = Json.entries (r.entry inner) r.start c.skipBlanks.next := by
      rw [Record.draft_eq, if_pos hcomes]
      rfl
    rw [hdraft, hr.start]
    exact hes.comesTo hr []

/-! ## Members and entries -/

theorem follows_memberRecord : memberRecord.Follows id fun es e => .ok (es ++ [e]) where
  start := rfl
  entry room v c c₁ c₂ es key hcolon hvalue := by
    have hentry : memberRecord.entry room key es c = colon c >>= fun read =>
        value room read.2 >>= fun read => .ok (es ++ [(key, read.1)], read.2) := rfl
    simp only [id, hentry, hcolon, hvalue, bind, Except.bind, ComesTo]

theorem follows_objectRecord (label : String) :
    (objectRecord label).Follows id fun es e => .ok (es.insert e.1 e.2) where
  start := rfl
  entry room v c c₁ c₂ es key hcolon hvalue := by
    simp only [id, entry_objectRecord, entryOf, hcolon, hvalue, bind, Except.bind, ComesTo]

theorem foldlM_ok (f : Entries → String × Value → Entries) (es before : Entries) :
    es.foldlM (fun es e => (.ok (f es e) : Except Cause Entries)) before = .ok (es.foldl f before) :=
  List.foldlM_pure

/-- The members of an object are read wherever it is read as a value, whose entries they are when they
are written one after the other; and with them every record is read that makes something of each. -/
theorem exists_members_eq_ok {c behind : Cursor} {entries : Entries}
    (h : value room c = .ok (.object entries, behind)) :
    ∃ es, members room c = .ok (es, behind) ∧ (Members.ofEntries es).entries = entries ∧
      ∀ {σ α : Type} {r : Record σ α} {of : Entries → σ}
        {next : Entries → String × Value → Except Cause Entries}, r.Follows of next →
          ComesTo of behind (r.draft room c) (es.foldlM next []) := by
  obtain ⟨es, hes⟩ := exists_members h
  refine ⟨es, ?_, ?_, hes⟩
  · have hdraft := hes follows_memberRecord
    rw [foldlM_ok, List.foldl_append_eq_append, List.nil_append, ← List.flatMap_def,
      List.flatMap_singleton'] at hdraft
    exact Record.decoder_eq_ok_iff.2 ⟨es, hdraft, rfl⟩
  · have hdraft := hes (follows_objectRecord "a map")
    rw [foldlM_ok] at hdraft
    have hobject : objectOf "a map" room c = .ok (Entries.insertAll [] es, behind) := by
      rw [objectOf_eq_decoder]
      exact Record.decoder_eq_ok_iff.2 ⟨_, hdraft, rfl⟩
    rw [objectOf_eq_ok_iff, h] at hobject
    cases hobject
    exact Members.entries_ofEntries es

/-- Every member has a value that can be read. -/
theorem members_gives : Gives (members room) fun es => ∀ e ∈ es, e.2.Keyed := by
  have hkeeps : memberRecord.Keeps fun es => ∀ e ∈ es, e.2.Keyed := by
    refine ⟨by simp [memberRecord], by simp [memberRecord], ?_⟩
    intro rule hrule key _ room es hes c next behind hread
    cases hrule
    obtain ⟨⟨v, c'⟩, hvalue, hread⟩ := bind_eq_ok_iff.1 hread
    cases hread
    rw [List.forall_mem_append, List.forall_mem_singleton]
    exact ⟨hes, (value_gives room hvalue).keyed⟩
  intro c es behind hread
  obtain ⟨draft, hdraft, hfinish⟩ := hkeeps.decoder hread
  cases hfinish
  exact hdraft

end AppExport.Json
