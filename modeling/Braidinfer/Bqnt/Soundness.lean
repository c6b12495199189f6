/-
What a file that `BqntFile::open` accepts is like (`bqnt.rs`), whatever its bytes are.

* `MmapBqnt.dataSection`: the span of all tensor data, for the arena of `weights.rs`;
* `Sound`: table, tensors and metadata lie in the file and apart, and the span has every tensor
  at its offset;
* `open_sound_iff`: **an accepted file is sound exactly if nothing lies on its table**.
-/
import Braidinfer.Bqnt.RoundTrip

namespace Braidinfer.Bqnt

open Braidinfer.Lib

/-! ### The span of the data -/

/-- `data_section`. -/
def MmapBqnt.dataSection (f : MmapBqnt) : Option (UInt64 × List UInt8) := do
  let start ← (f.header.entries.entries.map fun p => p.2.dataOffset).min?
  let e ← (f.header.entries.entries.map fun p => p.2.dataOffset + p.2.dataBytes).max?
  if start.toNat ≤ e.toNat ∧ e.toNat ≤ f.mmap.length then
    some (start, slice f.mmap start.toNat (e.toNat - start.toNat))
  else none

/-- `max` of `u64` is the larger number. -/
instance lawfulOrderMax_uInt64 : Std.LawfulOrderMax UInt64 := by
  have hmax : ∀ a b : UInt64, max a b = if a ≤ b then b else a := fun _ _ => rfl
  refine .of_max_le_iff (fun a b c => ?_) fun a b => ?_
  · rw [hmax]
    split <;> simp only [UInt64.le_iff_toNat_le] at * <;> omega
  · rw [hmax]
    split
    · exact .inr rfl
    · exact .inl rfl

/-- A part of a part of a list. -/
lemma slice_slice {α : Type*} {l : List α} {s n o k : ℕ} (h : o + k ≤ n) :
    slice (slice l s n) o k = slice l (s + o) k := by
  rw [slice, slice, slice, List.drop_take, List.drop_drop, List.take_take, min_eq_left (by omega)]

/-- **The span has every range at its offset**, if no end overflows. -/
lemma dataSection_ok {f : MmapBqnt} {start : UInt64} {span : List UInt8}
    (hspan : f.dataSection = some (start, span)) {p : Sigma fun _ : UInt64 => TensorEntry}
    (hp : p ∈ f.header.entries.entries)
    (hfits : p.2.dataOffset.toNat + p.2.dataBytes.toNat < 2 ^ 64) :
    start ≤ p.2.dataOffset ∧
      (p.2.dataOffset - start).toNat + p.2.dataBytes.toNat ≤ span.length ∧
      slice span (p.2.dataOffset - start).toNat p.2.dataBytes.toNat =
        slice f.mmap p.2.dataOffset.toNat p.2.dataBytes.toNat := by
  obtain ⟨s, hs, hspan⟩ := Option.bind_eq_some_iff.mp hspan
  obtain ⟨e, he, hspan⟩ := Option.bind_eq_some_iff.mp hspan
  split_ifs at hspan with hbounds
  obtain ⟨rfl, rfl⟩ := Prod.mk.inj (Option.some.inj hspan)
  have hle : s ≤ p.2.dataOffset :=
    (List.min?_eq_some_iff.mp hs).2 _ (List.mem_map.mpr ⟨p, hp, rfl⟩)
  have hend : p.2.dataOffset + p.2.dataBytes ≤ e :=
    (List.max?_eq_some_iff.mp he).2 _ (List.mem_map.mpr ⟨p, hp, rfl⟩)
  have hoff : (p.2.dataOffset - s).toNat = p.2.dataOffset.toNat - s.toNat :=
    UInt64.toNat_sub_of_le _ _ hle
  rw [UInt64.le_iff_toNat_le] at hle
  rw [UInt64.le_iff_toNat_le, UInt64.toNat_add, Nat.mod_eq_of_lt hfits] at hend
  rw [hoff, slice_slice (by omega), Nat.add_sub_cancel' hle]
  refine ⟨UInt64.le_iff_toNat_le.mpr hle, ?_, rfl⟩
  rw [slice, List.length_take, List.length_drop]
  omega

/-! ### Soundness -/

/-- No byte below `bound` lies in the `n` bytes at `start`. -/
def Behind (bound start n : ℕ) : Prop := ∀ p, start ≤ p → p < start + n → bound ≤ p

/-- No byte lies both in the `n` bytes at `start` and in the `m` bytes at `other`. -/
def Apart (start n other m : ℕ) : Prop :=
  ∀ p, start ≤ p → p < start + n → ¬ (other ≤ p ∧ p < other + m)

/-- What holds of the tensor of an entry: its range lies in the file, behind the table, and apart
from the metadata; its size is the packed one; and it is found under its hash. -/
structure TensorSound (bytes : List UInt8) (f : MmapBqnt) (e : TensorEntry) : Prop where
  lookup : f.header.entries.lookup e.nameHash = some e
  fits : e.dataOffset.toNat + e.dataBytes.toNat < 2 ^ 64
  inside : e.dataOffset.toNat + e.dataBytes.toNat ≤ bytes.length
  behind : Behind (32 + f.nTensors * 48) e.dataOffset.toNat e.dataBytes.toNat
  apart : Apart e.dataOffset.toNat e.dataBytes.toNat f.header.metadataOffset.toNat
    f.header.metadataSize.toNat
  size : ∃ format, codeToFormat e.format = some format ∧
    e.dataBytes.toNat = packedSize format e.outFeatures.toNat e.inFeatures.toNat
  span : ∀ start span, f.dataSection = some (start, span) →
    start ≤ e.dataOffset ∧ (e.dataOffset - start).toNat + e.dataBytes.toNat ≤ span.length ∧
      f.entryData e = some (slice span (e.dataOffset - start).toNat e.dataBytes.toNat)

/-- **A sound file**: `bytes`, opened as `f`. -/
structure Sound (bytes : List UInt8) (f : MmapBqnt) : Prop where
  nTensors : f.nTensors = (u32At bytes 8).toNat
  table_inside : 32 + f.nTensors * 48 ≤ bytes.length
  tensor : ∀ i < f.nTensors, TensorSound bytes f (tableEntry bytes i)
  mem : ∀ k e, f.header.entries.lookup k = some e →
    k = e.nameHash ∧ ∃ i < f.nTensors, e = tableEntry bytes i
  metadata_fits : f.header.metadataOffset.toNat + f.header.metadataSize.toNat < 2 ^ 64
  metadata_inside : f.header.metadataOffset.toNat + f.header.metadataSize.toNat ≤ bytes.length
  metadata_behind : Behind (32 + f.nTensors * 48) f.header.metadataOffset.toNat
    f.header.metadataSize.toNat
  table_fits : 32 + f.nTensors * 48 < 2 ^ 64
  reserved_fits : 32 + reservedEntries bytes * 48 + alignment.toNat < 2 ^ 64
  tableEnd : (tableEnd (reservedEntries bytes)).toNat =
    ceilTo alignment.toNat (32 + reservedEntries bytes * 48)

/-- A range that starts behind the reserved region, but within the table of all the entries. -/
def InGap (bytes : List UInt8) (start : UInt64) : Prop :=
  (tableEnd (reservedEntries bytes)).toNat ≤ start.toNat ∧
    start.toNat < 32 + (u32At bytes 8).toNat * 48

/-- No tensor that has bytes, and no metadata, starts in the gap. -/
def TableClear (bytes : List UInt8) : Prop :=
  (∀ i < (u32At bytes 8).toNat, (tableEntry bytes i).dataBytes ≠ 0 →
    ¬ InGap bytes (tableEntry bytes i).dataOffset) ∧
  (u64At bytes 24 ≠ 0 → ¬ InGap bytes (u64At bytes 16))

lemma reservedEntries_lt (bytes : List UInt8) : reservedEntries bytes < 2 ^ 32 := by
  rw [reservedEntries]
  split
  · decide
  · exact (u32At bytes 12).toNat_lt

/-- There is no gap if the table fits into the reserved region. -/
lemma tableClear_of_reserved {bytes : List UInt8}
    (h : (u32At bytes 8).toNat ≤ reservedEntries bytes) : TableClear bytes := by
  have hle := le_tableEnd (reservedEntries_lt bytes)
  exact ⟨fun i _ _ hgap => by have := hgap.1; have := hgap.2; omega,
    fun _ hgap => by have := hgap.1; have := hgap.2; omega⟩

/-- A range that has bytes only behind the reserved region lies behind the table exactly if it
does not start in the gap. -/
lemma behind_iff {bytes : List UInt8} {start size : UInt64}
    (hreserved : size ≠ 0 → (tableEnd (reservedEntries bytes)).toNat ≤ start.toNat) :
    Behind (32 + (u32At bytes 8).toNat * 48) start.toNat size.toNat ↔
      (size ≠ 0 → ¬ InGap bytes start) := by
  constructor
  · intro h hne hgap
    have hpos : 0 < size.toNat := Nat.pos_of_ne_zero fun h0 => hne (UInt64.toNat_inj.mp h0)
    have hp := h start.toNat le_rfl (by omega)
    have := hgap.2
    omega
  · intro h p hp hp'
    have hne : size ≠ 0 := fun h0 => by
      rw [h0] at hp'
      change p < start.toNat + 0 at hp'
      omega
    have hgap := not_and.mp (h hne) (hreserved hne)
    omega

/-- A tensor that has been checked lies apart from the metadata. -/
lemma EntryChecked.apart_metadata {bytes : List UInt8} {h : Header} {e : TensorEntry}
    (hh : HeaderOk bytes h) (he : EntryChecked h e) :
    Apart e.dataOffset.toNat e.dataBytes.toNat h.metadataOffset.toNat h.metadataSize.toNat := by
  intro p hp hp' ⟨hm, hm'⟩
  by_cases hzero : h.metadataSize = 0
  · rw [hzero] at hm'
    change p < h.metadataOffset.toNat + 0 at hm'
    omega
  · have hend := hh.metadataEnd
    rcases he.apart hzero with hlt | hlt
    · omega
    · omega

/-- **An accepted file is sound exactly if nothing lies on its table.**  The table, every tensor
and the metadata lie in the file; every size is the packed one; the tensors lie apart from the
metadata; no sum or product of the reader leaves 64 bits; and the span of the data has each
tensor at its offset.  All of this holds of every accepted file, and so does the rest, that no
tensor and no metadata meets the header or an entry, if none of them starts in the gap between
the reserved region and the end of the table. -/
theorem open_sound_iff {N : Type} (json : SerdeJson N) (bytes : List UInt8) (f : MmapBqnt)
    (hopen : MmapBqnt.openMmap json bytes = .ok f) : Sound bytes f ↔ TableClear bytes := by
  rw [MmapBqnt.openMmap] at hopen
  split at hopen
  · cases hopen
  rename_i header hheader
  obtain rfl := Except.ok.inj hopen
  obtain ⟨h, hok⟩ := openFile_ok hheader
  have hn : header.nTensors = (u32At bytes 8).toNat := hok.nTensors.trans hok.header.nTensors
  have hcount : h.nTensors = (u32At bytes 8).toNat := hok.header.nTensors
  have hoffset : header.metadataOffset = u64At bytes 16 :=
    hok.metadataOffset.trans hok.header.metadataOffset
  have hsize : header.metadataSize = u64At bytes 24 :=
    hok.metadataSize.trans hok.header.metadataSize
  have hfile := hok.header.fileLen
  have hfileLt := h.fileLen.toNat_lt
  have hmetaEnd := hok.header.metadataEnd
  have hmetaIn := hok.header.metadata_inside
  rw [← hok.metadataOffset, ← hok.metadataSize] at hmetaEnd
  -- what the reader has compared with the end of the reserved region
  have hreserved : ∀ i < (u32At bytes 8).toNat, (tableEntry bytes i).dataBytes ≠ 0 →
      (tableEnd (reservedEntries bytes)).toNat ≤ (tableEntry bytes i).dataOffset.toNat := by
    intro i hi _
    rw [← hok.header.tableEnd]
    exact (hok.checked i (by omega)).behind
  have hreservedMeta : u64At bytes 24 ≠ 0 →
      (tableEnd (reservedEntries bytes)).toNat ≤ (u64At bytes 16).toNat := by
    rw [← hok.header.tableEnd, ← hok.header.metadataOffset, ← hok.header.metadataSize]
    exact hok.header.metadata_behind
  constructor
  · intro hsound
    refine ⟨fun i hi => (behind_iff (hreserved i hi)).mp ?_, (behind_iff hreservedMeta).mp ?_⟩
    · rw [← hn]
      exact (hsound.tensor i (lt_of_lt_of_eq hi hn.symm)).behind
    · rw [← hn, ← hoffset, ← hsize]
      exact hsound.metadata_behind
  · intro hclear
    have hlt := reservedEntries_lt bytes
    have halign : alignment.toNat = 65536 := rfl
    have hcountLt := (u32At bytes 8).toNat_lt
    have hmetaFits : header.metadataOffset.toNat + header.metadataSize.toNat < 2 ^ 64 := by omega
    refine ⟨hn, ?_, fun i hi => ?_, fun k e hk => ?_, hmetaFits, ?_, ?_, ?_, ?_,
      toNat_tableEnd hlt⟩
    · change 32 + header.nTensors * 48 ≤ bytes.length
      rw [hok.nTensors]
      exact le_trans hok.header.table_inside hfile
    · change i < header.nTensors at hi
      have he := hok.checked i (by omega)
      have hin := he.inside
      have hmem := (hok.mem _).mpr ⟨i, by omega, rfl⟩
      have hfits : (tableEntry bytes i).dataOffset.toNat + (tableEntry bytes i).dataBytes.toNat <
          2 ^ 64 := by omega
      refine ⟨AList.mem_lookup_iff.mpr hmem, hfits, by omega, ?_, ?_, he.size, ?_⟩
      · change Behind (32 + header.nTensors * 48) _ _
        rw [hn]
        exact (behind_iff (hreserved i (by omega))).mpr (hclear.1 i (by omega))
      · change Apart _ _ header.metadataOffset.toNat header.metadataSize.toNat
        rw [hok.metadataOffset, hok.metadataSize]
        exact he.apart_metadata hok.header
      · intro start span hspan
        obtain ⟨hle, hspanFits, hslice⟩ := dataSection_ok hspan hmem hfits
        refine ⟨hle, hspanFits, ?_⟩
        rw [hslice, MmapBqnt.entryData]
        exact if_pos (by change _ ≤ bytes.length; omega)
    · obtain ⟨i, hi, heq⟩ := (hok.mem ⟨k, e⟩).mp (AList.mem_lookup_iff.mp hk)
      have he : e = tableEntry bytes i := congrArg Sigma.snd heq
      have hk' : k = (tableEntry bytes i).nameHash := congrArg Sigma.fst heq
      exact ⟨by rw [hk', he], i, lt_of_lt_of_eq hi hok.nTensors.symm, he⟩
    · change header.metadataOffset.toNat + header.metadataSize.toNat ≤ bytes.length
      omega
    · change Behind (32 + header.nTensors * 48) header.metadataOffset.toNat
        header.metadataSize.toNat
      rw [hn, hoffset, hsize]
      exact (behind_iff hreservedMeta).mpr hclear.2
    · change 32 + header.nTensors * 48 < 2 ^ 64
      omega
    · omega

/-- The file of two tensors is accepted, and it is sound. -/
theorem open_sound_two_tensors :
    ∃ bytes f, MmapBqnt.openMmap tensorsJson bytes = .ok f ∧ f.nTensors = 2 ∧
      Sound bytes f := by
  have hobject : tensorsJson.fromStr "\x7b\x7d" = some (.object []) := rfl
  have hne : utf8 (tensorsJson.toString (fileMetadata (·.entries) twoTensors [])) ≠ [] := by
    rw [fileMetadata_twoTensors]
    decide +kernel
  obtain ⟨w, offset, bytes, -, hw⟩ := writeFile_spec twoTensors_writable hobject rfl hne
    fileEnd_twoTensors
  obtain ⟨f, hopen, hn, -⟩ := openFile_spec hw twoTensors_writable fileEnd_twoTensors
  obtain ⟨rest, hbytes⟩ := hw.header
  have hmmap : MmapBqnt.openMmap tensorsJson bytes =
      .ok ⟨bytes, f, MmapBqnt.readNameTable tensorsJson bytes f⟩ := by
    simp only [MmapBqnt.openMmap, hopen]
  refine ⟨bytes, _, hmmap, hn, (open_sound_iff tensorsJson bytes _ hmmap).mpr
    (tableClear_of_reserved ?_)⟩
  rw [hbytes]
  rfl

/-! ### A file with metadata on its table -/

/-- An entry without data, at the end of a reserved region of one entry. -/
def emptyEntry (i : ℕ) : TensorEntry :=
  { nameHash := UInt64.ofNat i, format := 0, outFeatures := 0, inFeatures := 0,
    originalNdim := 2, dataOffset := 65536, dataBytes := 0 }

/-- 1365 entries, one of them reserved, and 16 bytes of metadata on the last of them. -/
def overlapping : List UInt8 :=
  encodeHeader 1365 1 65536 16 ++ encodeTable ((List.range 1365).map emptyEntry)

lemma length_overlapping : overlapping.length = 65552 := by
  rw [overlapping, List.length_append, length_encodeHeader, length_encodeTable, List.length_map,
    List.length_range]

/-- The reader accepts the file. -/
lemma openFile_overlapping : ∃ f, BqntFile.openFile overlapping = .ok f ∧ f.nTensors = 1365 ∧
    f.metadataOffset = 65536 ∧ f.metadataSize = 16 := by
  have htable : (tableEnd 1).toNat = 65536 := by decide
  have hbytes : overlapping = encodeHeader 1365 1 65536 16 ++
      encodeTable ((List.range 1365).map emptyEntry) := rfl
  obtain ⟨h, hheader, hfile, hn, hend, hoffset, hsize, hmetaEnd⟩ := readHeader_spec hbytes
    (by rw [length_overlapping]; decide) (by decide) (by decide) (by decide)
    (by rw [length_overlapping]) (by rw [length_overlapping]; decide) (by rw [htable]; decide)
  rw [length_overlapping] at hfile
  have hok : ∀ e ∈ (List.range 1365).map emptyEntry, EntryOk h e := by
    intro e he
    obtain ⟨i, -, rfl⟩ := List.mem_map.mp he
    have hoff : (emptyEntry i).dataOffset.toNat = 65536 := rfl
    have hbytes : (emptyEntry i).dataBytes.toNat = 0 := rfl
    have hmetaOff : h.metadataOffset.toNat = 65536 := by
      rw [hoffset]
      rfl
    refine EntryChecked.entryOk ⟨UInt32.le_iff_toNat_le.mpr (by decide : 2 ≤ 16),
      ⟨.bf16, rfl, rfl⟩, by omega, ?_, fun _ => .inr (by omega)⟩
    rw [hend, htable, hoff]
  have hnodup : (((List.range 1365).map emptyEntry).map (·.nameHash)).Nodup := by
    rw [List.map_map]
    refine List.Nodup.map_on (fun i hi j hj heq => ?_) List.nodup_range
    have hi' := List.mem_range.mp hi
    have hj' := List.mem_range.mp hj
    have hinj : (UInt64.ofNat i).toNat = (UInt64.ofNat j).toNat := congrArg UInt64.toNat heq
    rwa [UInt64.toNat_ofNat', UInt64.toNat_ofNat', Nat.mod_eq_of_lt (by omega),
      Nat.mod_eq_of_lt (by omega)] at hinj
  obtain ⟨out, hout, -⟩ := readEntries_spec [] hok hnodup fun e _ =>
    AList.notMem_empty e.nameHash
  rw [List.append_nil, List.length_map, List.length_range] at hout
  have hcount : readEntries h h.nTensors (encodeTable ((List.range 1365).map emptyEntry)) ∅ =
      .ok out := by
    rw [hn]
    exact hout
  exact ⟨_, openFile_eq hheader hcount, hn, hoffset, hsize⟩

/-- Not every accepted file is sound. -/
theorem not_open_sound : ¬ ∀ (N : Type) (json : SerdeJson N) (bytes : List UInt8) (f : MmapBqnt),
    MmapBqnt.openMmap json bytes = .ok f → Sound bytes f := by
  intro h
  obtain ⟨f, hopen, hn, hoffset, hsize⟩ := openFile_overlapping
  have hmmap : MmapBqnt.openMmap tensorsJson overlapping =
      .ok ⟨overlapping, f, MmapBqnt.readNameTable tensorsJson overlapping f⟩ := by
    rw [MmapBqnt.openMmap, hopen]
  have hbehind : Behind (32 + f.nTensors * 48) f.metadataOffset.toNat f.metadataSize.toNat :=
    (h Empty tensorsJson overlapping _ hmmap).metadata_behind
  rw [hn, hoffset, hsize] at hbehind
  exact absurd (hbehind 65536 (by decide) (by decide)) (by decide)

end Braidinfer.Bqnt
