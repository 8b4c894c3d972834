/-
Archives read again. A scan goes over the local records from the first byte on: each says how long its
name is, its content is over with the last of its blocks, and where no further record begins the
entries are complete. So whatever entries are packed are found again, as they were, as long as the
lengths of their names can be written down.
-/
import AppExport.Archive.Container
import AppExport.Proofs.Text.Utf8
import Mathlib.Data.Option.Basic

namespace AppExport.Archive

/-! ## Scans -/

/-- A reader of bytes: what it has read, and the bytes behind that. -/
abbrev Scan (α : Type) : Type := StateT (List UInt8) Option α

/-- Whether a scan reads some bytes as a value, whatever stands behind them. -/
def Scans {α : Type} (scan : Scan α) (bytes : List UInt8) (a : α) : Prop :=
  ∀ rest, scan.run (bytes ++ rest) = some (a, rest)

namespace Scans

variable {α β : Type} {scan : Scan α} {more : α → Scan β} {bytes bytes' : List UInt8} {a : α} {b : β}

theorem pure (a : α) : Scans (Pure.pure a : Scan α) [] a := fun _ => rfl

theorem bind (h : Scans scan bytes a) (hmore : Scans (more a) bytes' b) :
    Scans (scan >>= more) (bytes ++ bytes') b := by
  intro rest
  rw [List.append_assoc, StateT.run_bind, h]
  exact hmore rest

/-- A step that reads nothing, ahead of others. -/
theorem ahead (h : Scans scan [] a) (hmore : Scans (more a) bytes b) :
    Scans (scan >>= more) bytes b := h.bind hmore

/-- Steps that read nothing, behind another. -/
theorem behind (h : Scans scan bytes a) (hmore : Scans (more a) [] b) :
    Scans (scan >>= more) bytes b := by
  simpa only [List.append_nil] using h.bind hmore

theorem map (f : α → β) (h : Scans scan bytes a) :
    Scans (do return f (← scan)) bytes (f a) := h.behind (.pure (f a))

end Scans

def byte : Scan UInt8
  | [] => none
  | b :: rest => some (b, rest)

/-- A number in `width` bytes, the lowest first. -/
def number : (width : Nat) → Scan Nat
  | 0 => return 0
  | width + 1 => do
    let low ← byte
    return low.toNat + 256 * (← number width)

def take : (count : Nat) → Scan (List UInt8)
  | 0 => return []
  | count + 1 => do
    let b ← byte
    return b :: (← take count)

theorem scans_byte (b : UInt8) : Scans byte [b] b := fun _ => rfl

theorem scans_take (bytes : List UInt8) : Scans (take bytes.length) bytes bytes := by
  induction bytes with
  | nil => exact .pure []
  | cons b bytes ih => exact (scans_byte b).bind (ih.map (b :: ·))

/-- How many numbers there are in `width` bytes. -/
def capacity : (width : Nat) → Nat
  | 0 => 1
  | width + 1 => 256 * capacity width

theorem littleEndian_succ (width n : Nat) :
    littleEndian (width + 1) n = UInt8.ofNat n :: littleEndian width (n / 256) := by
  simp only [littleEndian, List.range_succ_eq_map, List.map_cons, List.map_map]
  refine congrArg₂ _ rfl (List.map_congr_left fun i _ => ?_)
  simp only [Function.comp_apply, Nat.mul_succ, Nat.shiftRight_eq_div_pow, Nat.pow_add',
    ← Nat.div_div_eq_div_mul]

theorem length_littleEndian (width n : Nat) : (littleEndian width n).length = width := by
  simp [littleEndian]

theorem scans_number (width n : Nat) :
    Scans (number width) (littleEndian width n) (n % capacity width) := by
  induction width generalizing n with
  | zero =>
    rw [capacity, Nat.mod_one]
    exact .pure 0
  | succ width ih =>
    have hlow : (UInt8.ofNat n).toNat = n % 256 := rfl
    rw [littleEndian_succ, capacity, Nat.mod_mul, ← hlow]
    exact (scans_byte _).bind ((ih (n / 256)).map ((UInt8.ofNat n).toNat + 256 * ·))

theorem scans_number_of_lt {width n : Nat} (h : n < capacity width) :
    Scans (number width) (littleEndian width n) n := by
  have hscan := scans_number width n
  rwa [Nat.mod_eq_of_lt h] at hscan

/-! ## Contents -/

/-- A stored block, and whether it is the last one. -/
def block : Scan (Bool × List UInt8) := do
  let last ← byte
  guard (last = 0 ∨ last = 1)
  let size ← number 2
  guard ((← number 2) = blockSize - size)
  return (last = 1, ← take size)

/-- Blocks up to the last one, of which there are at most so many. -/
def blocks : (most : Nat) → Scan (List UInt8)
  | 0 => failure
  | most + 1 => do
    let (last, bytes) ← block
    if last then return bytes else return bytes ++ (← blocks most)

theorem scans_guard {p : Prop} [Decidable p] (h : p) : Scans (guard p) [] () := by
  intro rest
  rw [guard, if_pos h]
  rfl

theorem scans_block (last : Bool) {bytes : List UInt8} (h : bytes.length ≤ blockSize) :
    Scans block (storedBlock last bytes) (last, bytes) := by
  have hsize : bytes.length < capacity 2 := Nat.lt_succ_of_le h
  have hcheck : blockSize - bytes.length < capacity 2 := Nat.lt_succ_of_le (Nat.sub_le _ _)
  have hscan (kind : UInt8) (hkind : kind = 0 ∨ kind = 1) :
      Scans block (kind :: littleEndian 2 bytes.length ++ littleEndian 2 (65535 - bytes.length) ++
        bytes) (kind = 1, bytes) := by
    simpa only [block, List.singleton_append, List.nil_append, List.append_assoc, List.cons_append]
      using (scans_byte kind).bind <| (scans_guard hkind).ahead <|
      (scans_number_of_lt hsize).bind <| (scans_number_of_lt hcheck).bind <|
        (scans_guard rfl).ahead <| (scans_take bytes).map (decide (kind = 1), ·)
  cases last with
  | false => exact hscan 0 (.inl rfl)
  | true => exact hscan 1 (.inr rfl)

theorem scans_blocks (bytes : List UInt8) {most : Nat} (h : bytes.length < most) :
    Scans (blocks most) (stream bytes) bytes := by
  induction most generalizing bytes with
  | zero => exact absurd h (Nat.not_lt_zero _)
  | succ most ih =>
    rw [stream, blocks]
    split
    next hlast => exact (scans_block true hlast).behind (.pure bytes)
    next hmore =>
      have hfirst : (bytes.take blockSize).length ≤ blockSize := List.length_take_le _ _
      have hrest : (bytes.drop blockSize).length < most := by
        simp only [List.length_drop, blockSize] at *
        omega
      have hboth := (ih _ hrest).map (bytes.take blockSize ++ ·)
      rw [List.take_append_drop] at hboth
      exact (scans_block false hfirst).bind hboth

theorem length_lt_length_stream (bytes : List UInt8) : bytes.length < (stream bytes).length := by
  fun_induction stream bytes with
  | case1 bytes h =>
    simp only [storedBlock, List.length_append, List.length_cons]
    omega
  | case2 bytes h ih =>
    simp only [storedBlock, List.length_append, List.length_cons, List.length_take,
      List.length_drop] at ih ⊢
    omega

/-- All that is left bounds the number of blocks. -/
def contents : Scan (List UInt8) := do blocks (← get).length

theorem scans_contents (bytes : List UInt8) : Scans contents (stream bytes) bytes := by
  intro rest
  refine scans_blocks bytes ?_ rest
  rw [List.length_append]
  exact Nat.lt_add_right _ (length_lt_length_stream bytes)

/-! ## Texts -/

def text (bytes : List UInt8) : Scan String := liftM (String.fromUTF8? ⟨bytes.toArray⟩)

theorem toList_eq_data (bytes : ByteArray) : bytes.toList = bytes.data.toList := by
  rw [ByteArray.toList, Text.byteArray_toList_loop]
  rfl

theorem scans_text (s : String) : Scans (text s.toUTF8.toList) [] s := by
  have hread : String.fromUTF8? s.toUTF8 = some s := by
    simp only [String.fromUTF8?, String.toUTF8_eq_toByteArray, dif_pos s.isValidUTF8]
    rfl
  intro rest
  rw [text, toList_eq_data, hread]
  rfl

theorem length_toUTF8_toList (s : String) : s.toUTF8.toList.length = s.utf8ByteSize := by
  rw [toList_eq_data]
  rfl

/-! ## Records -/

/-- The rest of a local record, behind its mark. -/
def record : Scan Entry := do
  let _ ← take 4
  guard ((← number 2) = deflated.code)
  let _ ← take 4
  let sum ← number 4
  let _ ← take 8
  let nameSize ← number 2
  let extraSize ← number 2
  let name ← text (← take nameSize)
  let _ ← take extraSize
  let bytes ← contents
  guard (checksum bytes = UInt32.ofNat sum)
  return ⟨name, ← text bytes⟩

/-- The longest name of an entry, in bytes. -/
def longestEntryName : Nat := 65535

theorem scans_record {e : Entry} (h : e.name.utf8ByteSize ≤ longestEntryName) :
    Scans record (description e ++ littleEndian 2 0 ++ e.name.toUTF8.toList ++ stream e.bytes) e := by
  have hsum : e.checksum.toNat < capacity 4 := e.checksum.toNat_lt
  have hname : e.name.utf8ByteSize < capacity 2 := Nat.lt_succ_of_le h
  have hchecked : checksum e.bytes = UInt32.ofNat e.checksum.toNat := UInt32.ofNat_toNat.symm
  have hversion := scans_take (littleEndian 2 20 ++ littleEndian 2 0x0800)
  have hmethod : Scans (number 2) (littleEndian 2 deflated.code) deflated.code :=
    scans_number_of_lt (by decide)
  have hstamp := scans_take (littleEndian 2 Stamp.earliest.time ++ littleEndian 2 Stamp.earliest.date)
  have hsizes := scans_take (littleEndian 4 (stream e.bytes).length ++ littleEndian 4 e.size)
  have hextra : Scans (number 2) (littleEndian 2 0) 0 := scans_number_of_lt (by decide)
  have htitle := scans_take e.name.toUTF8.toList
  rw [length_toUTF8_toList] at htitle
  simp only [List.length_append, length_littleEndian] at hversion hstamp hsizes
  simpa only [record, description, List.append_assoc, List.nil_append] using
    hversion.bind <| hmethod.bind <| (scans_guard rfl).ahead <| hstamp.bind <|
      (scans_number_of_lt hsum).bind <| hsizes.bind <| (scans_number_of_lt hname).bind <|
        hextra.bind <| htitle.bind <| (scans_text e.name).ahead <| (scans_take []).ahead <|
          (scans_contents e.bytes).behind <| (scans_guard hchecked).ahead <|
            (scans_text e.content).map (Entry.mk e.name)

/-- What a mark announces: a record with others behind it, or that there are no more. -/
def marked (others : Scan (List Entry)) (mark : Nat) : Scan (List Entry) :=
  if mark = 0x04034B50 then do
    let e ← record
    return e :: (← others)
  else do
    guard (mark = 0x02014B50 ∨ mark = 0x06054B50)
    return []

/-- Local records, of which there are fewer than so many, and the mark behind them. -/
def records : (most : Nat) → Scan (List Entry)
  | 0 => failure
  | most + 1 => number 4 >>= marked (records most)

theorem scans_end {mark : Nat} (h : mark = 0x02014B50 ∨ mark = 0x06054B50) (most : Nat) :
    Scans (records (most + 1)) (littleEndian 4 mark) [] := by
  have hnumber : mark < capacity 4 := by rcases h with rfl | rfl <;> decide
  have hother : mark ≠ 0x04034B50 := by rcases h with rfl | rfl <;> decide
  refine (scans_number_of_lt hnumber).behind ?_
  rw [marked, if_neg hother]
  exact (scans_guard h).ahead (.pure [])

theorem scans_localRecord {e : Entry} (h : e.name.utf8ByteSize ≤ longestEntryName) {most : Nat}
    {bytes : List UInt8} {others : List Entry} (hothers : Scans (records most) bytes others) :
    Scans (records (most + 1)) (localRecord e ++ bytes) (e :: others) := by
  have hmark : Scans (number 4) (littleEndian 4 0x04034B50) 0x04034B50 :=
    scans_number_of_lt (by decide)
  have hboth : Scans (record >>= fun e => do return e :: (← records most)) _ (e :: others) :=
    (scans_record h).bind (hothers.map (e :: ·))
  have hrecord : Scans (number 4 >>= marked (records most)) _ (e :: others) := hmark.bind hboth
  simpa only [records, localRecord, List.append_assoc] using hrecord

theorem scans_records {entries : List Entry}
    (h : ∀ e ∈ entries, e.name.utf8ByteSize ≤ longestEntryName) {mark most : Nat}
    (hmark : mark = 0x02014B50 ∨ mark = 0x06054B50) (hmost : entries.length < most) :
    Scans (records most) (entries.flatMap localRecord ++ littleEndian 4 mark) entries := by
  induction entries generalizing most with
  | nil =>
    obtain ⟨most, rfl⟩ := Nat.exists_eq_succ_of_ne_zero (Nat.ne_of_gt hmost)
    exact scans_end hmark most
  | cons e rest ih =>
    obtain ⟨most, rfl⟩ := Nat.exists_eq_succ_of_ne_zero (Nat.ne_of_gt (Nat.zero_lt_of_lt hmost))
    obtain ⟨hname, hnames⟩ := List.forall_mem_cons.1 h
    have hrest := ih hnames (Nat.lt_of_succ_lt_succ hmost)
    rw [List.flatMap_cons, List.append_assoc]
    exact scans_localRecord hname hrest

/-- The entries of an archive. -/
def unpack (bytes : List UInt8) : Option (List Entry) := (records bytes.length).run' bytes

theorem length_le_flatMap_localRecord (entries : List Entry) :
    entries.length ≤ (entries.flatMap localRecord).length := by
  induction entries with
  | nil => exact Nat.le_refl 0
  | cons e rest ih =>
    rw [List.flatMap_cons, List.length_append, localRecord]
    simp only [List.length_append, List.length_cons, length_littleEndian]
    omega

/-- Behind the local records there is the mark of the directory, or of its end if it is empty. -/
theorem exists_mark (entries : List Entry) :
    ∃ mark, (mark = 0x02014B50 ∨ mark = 0x06054B50) ∧ ∃ rest,
      container entries = entries.flatMap localRecord ++ (littleEndian 4 mark ++ rest) := by
  cases entries with
  | nil => exact ⟨0x06054B50, .inr rfl, _, rfl⟩
  | cons e others =>
    refine ⟨0x02014B50, .inl rfl, ?_⟩
    simp only [container, directory, directoryRecord, List.append_assoc]
    exact ⟨_, rfl⟩

/-- What is packed is found again, whatever the contents are. -/
theorem unpack_container {entries : List Entry}
    (h : ∀ e ∈ entries, e.name.utf8ByteSize ≤ longestEntryName) :
    unpack (container entries) = some entries := by
  obtain ⟨mark, hmark, rest, hcontainer⟩ := exists_mark entries
  have hmost : entries.length < (container entries).length := by
    have hrecords := length_le_flatMap_localRecord entries
    simp only [hcontainer, List.length_append, length_littleEndian]
    omega
  have hscan := scans_records h hmark hmost rest
  rw [List.append_assoc, ← hcontainer] at hscan
  rw [unpack, StateT.run'_eq, hscan]
  rfl

end AppExport.Archive
