/-
What the checks of `BqntFile::open` say (`bqnt.rs`): each step of the reader succeeds exactly if
some facts about the bytes hold.

* `checkedPackedSize_ok`, `checkedEnd_ok`: a checked sum or product is the exact one;
* `readHeader_ok`, `readHeader_of`: the header, both ways;
* `checkEntry_ok`, `EntryChecked.entryOk`, `readEntries_ok`, `readEntries_of`: the entries;
* `openFile_ok`, `openFile_of`: **the whole file**.
-/
import Braidinfer.Bqnt.Reader

namespace Braidinfer.Bqnt

open Braidinfer.Lib

/-! ### Checked arithmetic -/

lemma okOr_ok {x : Option UInt64} {msg : String} {v : UInt64} (h : okOr x msg = .ok v) :
    x = some v := by
  cases x with
  | none => cases h
  | some w => exact congrArg some (Except.ok.inj h)

lemma checkedMul_some {a b c : UInt64} (h : checkedMul a b = some c) :
    c.toNat = a.toNat * b.toNat := by
  rw [checkedMul] at h
  split_ifs at h with hlt
  rw [← Option.some.inj h, UInt64.toNat_mul, Nat.mod_eq_of_lt hlt]

lemma checkedAdd_some {a b c : UInt64} (h : checkedAdd a b = some c) :
    c.toNat = a.toNat + b.toNat := by
  rw [checkedAdd] at h
  split_ifs at h with hlt
  rw [← Option.some.inj h, UInt64.toNat_add, Nat.mod_eq_of_lt hlt]

lemma checkedRows_ok {out rows unit c : UInt64} {msg : String}
    (h : checkedRows out rows unit msg = .ok c) :
    c.toNat = out.toNat * rows.toNat * unit.toNat := by
  obtain ⟨x, hx, hc⟩ := Option.bind_eq_some_iff.mp (okOr_ok h)
  rw [checkedMul_some hc, checkedMul_some hx]

/-- A size that was computed without an overflow is the packed one. -/
lemma checkedPackedSize_ok {format : StorageDtype} {outDim inDim : UInt32} {c : UInt64}
    (h : checkedPackedSize format outDim inDim = .ok c) :
    c.toNat = packedSize format outDim.toNat inDim.toNat := by
  have hout : outDim.toUInt64.toNat = outDim.toNat := UInt32.toNat_toUInt64 outDim
  have hin : inDim.toUInt64.toNat = inDim.toNat := UInt32.toNat_toUInt64 inDim
  cases format with
  | bf16 => rw [checkedRows_ok h, hout, hin]; rfl
  | f32 => rw [checkedRows_ok h, hout, hin]; rfl
  | pcG32Q4 =>
      obtain ⟨g, hg, hgn⟩ := checkedGroups_eq inDim 31 32 "pcg32 packed group count overflows"
        (by decide)
      simp only [checkedPackedSize, hg] at h
      rw [checkedRows_ok h, hout, hgn]
      rfl
  | rnf4G128 =>
      obtain ⟨g, hg, hgn⟩ := checkedGroups_eq inDim 127 128 "rnf4 packed group count overflows"
        (by decide)
      simp only [checkedPackedSize, hg] at h
      rw [checkedRows_ok h, hout, hgn]
      rfl

lemma checkedEnd_ok {offset size e : UInt64} {context : String}
    (h : checkedEnd offset size context = .ok e) : e.toNat = offset.toNat + size.toNat :=
  checkedAdd_some (okOr_ok h)

lemma readExact_ok {n : ℕ} {bytes a rest : List UInt8} (h : readExact n bytes = .ok (a, rest)) :
    n ≤ bytes.length ∧ a = bytes.take n ∧ rest = bytes.drop n := by
  rw [readExact] at h
  split_ifs at h with hlt
  obtain ⟨rfl, rfl⟩ := Prod.mk.inj (Except.ok.inj h)
  exact ⟨by omega, rfl, rfl⟩

/-- A range whose end fits in 64 bits. -/
lemma checkedEnd_eq (offset size : UInt64) (context : String)
    (h : offset.toNat + size.toNat < 2 ^ 64) :
    ∃ e, checkedEnd offset size context = .ok e ∧ e.toNat = offset.toNat + size.toNat := by
  obtain ⟨e, he, hn⟩ := checkedAdd_eq h
  exact ⟨e, by rw [checkedEnd, he]; rfl, hn⟩

/-! ### The header -/

/-- The reserved entries of a header. -/
def reservedEntries (bytes : List UInt8) : ℕ :=
  if (u32At bytes 12).toNat = 0 then 4096 else (u32At bytes 12).toNat

/-- What the header of an accepted file says. -/
structure HeaderOk (bytes : List UInt8) (h : Header) : Prop where
  fileLen : h.fileLen.toNat ≤ bytes.length
  nTensors : h.nTensors = (u32At bytes 8).toNat
  tableEnd : h.tableEnd = tableEnd (reservedEntries bytes)
  metadataOffset : h.metadataOffset = u64At bytes 16
  metadataSize : h.metadataSize = u64At bytes 24
  table_inside : 32 + h.nTensors * 48 ≤ h.fileLen.toNat
  metadataEnd : h.metadataEnd.toNat = h.metadataOffset.toNat + h.metadataSize.toNat
  metadata_inside : h.metadataEnd.toNat ≤ h.fileLen.toNat
  metadata_behind : h.metadataSize ≠ 0 → h.tableEnd.toNat ≤ h.metadataOffset.toNat

lemma u32At_take {bytes : List UInt8} {i : ℕ} (hi : i + 4 ≤ 32) :
    u32At (bytes.take 32) i = u32At bytes i := by
  rw [u32At, u32At, slice, slice, List.drop_take, List.take_take, min_eq_left (by omega)]

lemma u64At_take {bytes : List UInt8} {i : ℕ} (hi : i + 8 ≤ 32) :
    u64At (bytes.take 32) i = u64At bytes i := by
  rw [u64At, u64At, slice, slice, List.drop_take, List.take_take, min_eq_left (by omega)]

/-- **An accepted header.** -/
lemma readHeader_ok {bytes rest : List UInt8} {h : Header}
    (hread : readHeader bytes = .ok (h, rest)) : HeaderOk bytes h ∧ rest = bytes.drop 32 := by
  rw [readHeader] at hread
  split_ifs at hread
  split at hread
  · cases hread
  rename_i header rest' hexact
  obtain ⟨-, rfl, rfl⟩ := readExact_ok hexact
  split_ifs at hread
  split at hread
  · cases hread
  rename_i h' hbounds
  obtain ⟨rfl, rfl⟩ := Prod.mk.inj (Except.ok.inj hread)
  refine ⟨?_, rfl⟩
  have hfile : (UInt64.ofNat bytes.length).toNat ≤ bytes.length := by
    rw [UInt64.toNat_ofNat']
    exact Nat.mod_le _ _
  have hcount : (u32At (bytes.take 32) 8).toNat = (u32At bytes 8).toNat := by
    rw [u32At_take (by decide)]
  have hreserved : (u32At (bytes.take 32) 12).toNat = (u32At bytes 12).toNat := by
    rw [u32At_take (by decide)]
  have hoffset : u64At (bytes.take 32) 16 = u64At bytes 16 := u64At_take (by decide)
  have hsize : u64At (bytes.take 32) 24 = u64At bytes 24 := u64At_take (by decide)
  rw [checkBounds] at hbounds
  have hres : (if (u32At bytes 12).toNat = 0 then 4096 else (u32At bytes 12).toNat) =
      reservedEntries bytes := rfl
  simp only [hcount, hreserved, hoffset, hsize, hres] at hbounds
  split at hbounds
  · cases hbounds
  rename_i tableBytes hmul
  split at hbounds
  · cases hbounds
  rename_i tableEndExact hexactEnd
  split at hbounds
  · cases hbounds
  rename_i htable
  split at hbounds
  · cases hbounds
  rename_i metadataEnd hmetaEnd
  split at hbounds
  · cases hbounds
  rename_i hmeta
  split at hbounds
  · cases hbounds
  rename_i hover
  obtain rfl := Except.ok.inj hbounds
  have hn : (UInt64.ofNat (u32At bytes 8).toNat).toNat = (u32At bytes 8).toNat :=
    UInt64.toNat_ofNat_of_lt' (lt_trans (u32At bytes 8).toNat_lt (by decide))
  have hexact : tableEndExact.toNat = 32 + (u32At bytes 8).toNat * 48 := by
    rw [checkedEnd_ok hexactEnd, checkedMul_some (okOr_ok hmul), hn]
    rfl
  refine ⟨hfile, rfl, rfl, rfl, rfl, ?_, checkedEnd_ok hmetaEnd, ?_, fun hne => ?_⟩
  · rw [← hexact]
    exact Nat.le_of_not_lt fun hlt => htable (UInt64.lt_iff_toNat_lt.mpr hlt)
  · exact Nat.le_of_not_lt fun hlt => hmeta (UInt64.lt_iff_toNat_lt.mpr hlt)
  · exact Nat.le_of_not_lt fun hlt => hover ⟨hne, UInt64.lt_iff_toNat_lt.mpr hlt⟩

/-- **A header is accepted** if it is one, and if the table and the metadata lie where they
have to. -/
lemma readHeader_of {bytes : List UInt8} (hlen : bytes.length < 2 ^ 64)
    (hmagic : u32At bytes 0 = magic) (hversion : u32At bytes 4 = version)
    (htable : 32 + (u32At bytes 8).toNat * 48 ≤ bytes.length)
    (hmeta : (u64At bytes 16).toNat + (u64At bytes 24).toNat ≤ bytes.length)
    (hbehind : u64At bytes 24 ≠ 0 →
      (tableEnd (reservedEntries bytes)).toNat ≤ (u64At bytes 16).toNat) :
    ∃ h, readHeader bytes = .ok (h, bytes.drop 32) ∧ h.fileLen.toNat = bytes.length := by
  have hfile : (UInt64.ofNat bytes.length).toNat = bytes.length := UInt64.toNat_ofNat_of_lt' hlen
  have hn64 : (UInt64.ofNat (u32At bytes 8).toNat).toNat = (u32At bytes 8).toNat :=
    UInt64.toNat_ofNat_of_lt' (lt_trans (u32At bytes 8).toNat_lt (by decide))
  obtain ⟨tableBytes, hmul, hmuln⟩ := checkedMul_eq (a := UInt64.ofNat (u32At bytes 8).toNat)
    (b := entrySize) (by
      rw [hn64]
      change (u32At bytes 8).toNat * 48 < 2 ^ 64
      omega)
  rw [hn64] at hmuln
  obtain ⟨tableExact, hexact, hexactn⟩ := checkedEnd_eq headerSize tableBytes "tensor table" (by
    rw [hmuln]
    change 32 + (u32At bytes 8).toNat * 48 < 2 ^ 64
    omega)
  rw [hmuln] at hexactn
  obtain ⟨metaEnd, hmetaEnd, hmetaEndn⟩ :=
    checkedEnd_eq (u64At bytes 16) (u64At bytes 24) "metadata" (by omega)
  have hsmall : ¬ UInt64.ofNat bytes.length < headerSize := by
    rw [UInt64.lt_iff_toNat_lt, hfile]
    change ¬ bytes.length < 32
    omega
  have hfits : ¬ UInt64.ofNat bytes.length < tableExact := by
    rw [UInt64.lt_iff_toNat_lt, hfile, hexactn]
    change ¬ bytes.length < 32 + (u32At bytes 8).toNat * 48
    omega
  have hmetaFits : ¬ UInt64.ofNat bytes.length < metaEnd := by
    rw [UInt64.lt_iff_toNat_lt, hfile, hmetaEndn]
    omega
  have hnot : ¬ (u64At bytes 24 ≠ 0 ∧ u64At bytes 16 < tableEnd (reservedEntries bytes)) :=
    fun hov => absurd (UInt64.lt_iff_toNat_lt.mp hov.2) (not_lt.mpr (hbehind hov.1))
  have hread : readExact 32 bytes = .ok (bytes.take 32, bytes.drop 32) := by
    rw [readExact, if_neg (by omega)]
  have hmagic' : ¬ u32At (bytes.take 32) 0 ≠ magic := by
    rw [u32At_take (by decide), not_not, hmagic]
  have hversion' : ¬ u32At (bytes.take 32) 4 ≠ version := by
    rw [u32At_take (by decide), not_not, hversion]
  have hbounds : checkBounds (UInt64.ofNat bytes.length) (bytes.take 32) =
      .ok ⟨UInt64.ofNat bytes.length, (u32At bytes 8).toNat, tableEnd (reservedEntries bytes),
        u64At bytes 16, u64At bytes 24, metaEnd⟩ := by
    have hcount : u32At (bytes.take 32) 8 = u32At bytes 8 := u32At_take (by decide)
    have hreserved : u32At (bytes.take 32) 12 = u32At bytes 12 := u32At_take (by decide)
    have hoffset : u64At (bytes.take 32) 16 = u64At bytes 16 := u64At_take (by decide)
    have hsize : u64At (bytes.take 32) 24 = u64At bytes 24 := u64At_take (by decide)
    have hres : (if (u32At bytes 12).toNat = 0 then 4096 else (u32At bytes 12).toNat) =
        reservedEntries bytes := rfl
    simp only [checkBounds, hcount, hreserved, hoffset, hsize, hres, hmul, okOr, hexact,
      if_neg hfits, hmetaEnd, if_neg hmetaFits, if_neg hnot]
  refine ⟨⟨UInt64.ofNat bytes.length, (u32At bytes 8).toNat, tableEnd (reservedEntries bytes),
    u64At bytes 16, u64At bytes 24, metaEnd⟩, ?_, hfile⟩
  simp only [readHeader, if_neg hsmall, hread, if_neg hmagic', if_neg hversion', hbounds]

/-! ### The entries -/

/-- What the checks of an accepted entry say. -/
structure EntryChecked (h : Header) (e : TensorEntry) : Prop where
  rank : e.originalNdim ≤ 16
  size : ∃ format, codeToFormat e.format = some format ∧
    e.dataBytes.toNat = packedSize format e.outFeatures.toNat e.inFeatures.toNat
  inside : e.dataOffset.toNat + e.dataBytes.toNat ≤ h.fileLen.toNat
  behind : h.tableEnd.toNat ≤ e.dataOffset.toNat
  apart : h.metadataSize ≠ 0 → h.metadataEnd.toNat ≤ e.dataOffset.toNat ∨
    e.dataOffset.toNat + e.dataBytes.toNat ≤ h.metadataOffset.toNat

/-- **An accepted entry.** -/
lemma checkEntry_ok {h : Header} {entries : HashMap UInt64 TensorEntry} {e : TensorEntry}
    (hok : checkEntry h entries e = .ok ()) : EntryChecked h e ∧ e.nameHash ∉ entries := by
  rw [checkEntry] at hok
  split at hok
  · cases hok
  rename_i hrank
  split at hok
  · cases hok
  rename_i format hformat
  split at hok
  · cases hok
  rename_i expected hexpected
  split at hok
  · cases hok
  rename_i hsize
  split at hok
  · cases hok
  rename_i dataEnd hend
  split_ifs at hok with hfile hbehind hoverlap hdup
  have hendn := checkedEnd_ok hend
  refine ⟨⟨UInt32.not_lt.mp hrank, ⟨format, hformat, ?_⟩, ?_, ?_, fun hne => ?_⟩, hdup⟩
  · rw [not_not.mp hsize, checkedPackedSize_ok hexpected]
  · rw [← hendn]
    exact Nat.le_of_not_lt fun hlt => hfile (UInt64.lt_iff_toNat_lt.mpr hlt)
  · exact Nat.le_of_not_lt fun hlt => hbehind (UInt64.lt_iff_toNat_lt.mpr hlt)
  · have hno : ¬ rangesOverlap e.dataOffset dataEnd h.metadataOffset h.metadataEnd = true :=
      fun hov => hoverlap ⟨hne, hov⟩
    rw [rangesOverlap, Bool.and_eq_true, decide_eq_true_eq, decide_eq_true_eq,
      UInt64.lt_iff_toNat_lt, UInt64.lt_iff_toNat_lt, hendn] at hno
    omega

/-- An entry that the reader accepts if its hash is new. -/
def EntryOk (h : Header) (e : TensorEntry) : Prop :=
  ∀ entries : HashMap UInt64 TensorEntry, e.nameHash ∉ entries → checkEntry h entries e = .ok ()

/-- An entry that satisfies the checks is accepted if its hash is new. -/
lemma EntryChecked.entryOk {h : Header} {e : TensorEntry}
    (he : EntryChecked h e) : EntryOk h e := by
  intro entries hnew
  have hlt := h.fileLen.toNat_lt
  have hinside := he.inside
  obtain ⟨format, hformat, hsize⟩ := he.size
  obtain ⟨expected, hexpected, hexpectedn⟩ := checkedPackedSize_eq format e.outFeatures
    e.inFeatures (by rw [← hsize]; omega)
  have hequal : ¬ e.dataBytes ≠ expected := by
    rw [not_not, ← UInt64.toNat_inj, hexpectedn, hsize]
  obtain ⟨dataEnd, hend, hendn⟩ := checkedEnd_eq e.dataOffset e.dataBytes "tensor data" (by omega)
  have hrank : ¬ (16 : UInt32) < e.originalNdim := UInt32.not_lt.mpr he.rank
  have hinFile : ¬ h.fileLen < dataEnd := by
    rw [UInt64.lt_iff_toNat_lt, hendn]
    omega
  have hinData : ¬ e.dataOffset < h.tableEnd := by
    rw [UInt64.lt_iff_toNat_lt]
    exact not_lt.mpr he.behind
  have hoverlap : ¬ (h.metadataSize ≠ 0 ∧
      rangesOverlap e.dataOffset dataEnd h.metadataOffset h.metadataEnd = true) := by
    rintro ⟨hne, hov⟩
    have hapart := he.apart hne
    rw [rangesOverlap, Bool.and_eq_true, decide_eq_true_eq, decide_eq_true_eq,
      UInt64.lt_iff_toNat_lt, UInt64.lt_iff_toNat_lt, hendn] at hov
    omega
  simp only [checkEntry, if_neg hrank, hformat, hexpected, if_neg hequal, hend, if_neg hinFile,
    if_neg hinData]
  rw [if_neg hoverlap, if_neg hnew]

/-- The entry with index `i`, as it stands in a file. -/
def tableEntry (bytes : List UInt8) (i : ℕ) : TensorEntry :=
  decodeEntry (slice bytes (32 + i * 48) 48)

/-- **An accepted table**: every entry has passed the checks, and the map has the entries. -/
lemma readEntries_ok {h : Header} {n : ℕ} {rest : List UInt8}
    {entries out : HashMap UInt64 TensorEntry} (hread : readEntries h n rest entries = .ok out) :
    n * 48 ≤ rest.length ∧
      (∀ i < n, EntryChecked h (decodeEntry (slice rest (i * 48) 48))) ∧
      out.entries = ((List.range n).map fun i =>
        (⟨(decodeEntry (slice rest (i * 48) 48)).nameHash, decodeEntry (slice rest (i * 48) 48)⟩ :
          Sigma fun _ : UInt64 => TensorEntry)).reverse ++ entries.entries := by
  induction n generalizing rest entries with
  | zero =>
      obtain rfl := Except.ok.inj hread
      exact ⟨by omega, fun i hi => by omega, rfl⟩
  | succ n ih =>
      rw [readEntries] at hread
      split at hread
      · cases hread
      rename_i buf rest' hexact
      obtain ⟨hlen, rfl, rfl⟩ := readExact_ok hexact
      dsimp only at hread
      split at hread
      · cases hread
      rename_i hcheck
      obtain ⟨hchecked, hnew⟩ := checkEntry_ok hcheck
      obtain ⟨hlen', hall, hout⟩ := ih hread
      rw [List.length_drop] at hlen'
      have hfirst : slice rest (0 * 48) 48 = rest.take 48 := by
        rw [slice, Nat.zero_mul, List.drop_zero]
      have hnext : ∀ i, slice (rest.drop 48) (i * 48) 48 = slice rest ((i + 1) * 48) 48 := by
        intro i
        rw [slice, slice, List.drop_drop]
        congr 2
        ring
      refine ⟨by omega, fun i hi => ?_, ?_⟩
      · cases i with
        | zero => rwa [hfirst]
        | succ i =>
            rw [← hnext]
            exact hall i (by omega)
      · rw [hout, AList.entries_insert_of_notMem hnew, List.range_succ_eq_map]
        simp only [List.map_cons, List.map_map, List.reverse_cons, List.append_assoc, hfirst,
          List.singleton_append, Function.comp_def, hnext]

/-- **A table is accepted**: its entries satisfy the checks, with new, distinct hashes. -/
lemma readEntries_of {h : Header} {n : ℕ} {rest : List UInt8}
    {entries : HashMap UInt64 TensorEntry} (hlen : n * 48 ≤ rest.length)
    (hok : ∀ i < n, EntryOk h (decodeEntry (slice rest (i * 48) 48)))
    (hnodup : ((List.range n).map fun i =>
      (decodeEntry (slice rest (i * 48) 48)).nameHash).Nodup)
    (hnew : ∀ i < n, (decodeEntry (slice rest (i * 48) 48)).nameHash ∉ entries) :
    ∃ out, readEntries h n rest entries = .ok out := by
  induction n generalizing rest entries with
  | zero => exact ⟨entries, rfl⟩
  | succ n ih =>
      have hfirst : slice rest (0 * 48) 48 = rest.take 48 := by
        rw [slice, Nat.zero_mul, List.drop_zero]
      have hnext : ∀ i, slice (rest.drop 48) (i * 48) 48 = slice rest ((i + 1) * 48) 48 := by
        intro i
        rw [slice, slice, List.drop_drop]
        congr 2
        ring
      have hhead := hnew 0 (Nat.succ_pos n)
      have hcheck := hok 0 (Nat.succ_pos n) entries hhead
      rw [hfirst] at hhead hcheck
      rw [List.range_succ_eq_map, List.map_cons, List.map_map] at hnodup
      obtain ⟨hfresh, htail⟩ := List.nodup_cons.mp hnodup
      obtain ⟨out, hout⟩ := @ih (rest.drop 48)
        (entries.insert (decodeEntry (rest.take 48)).nameHash (decodeEntry (rest.take 48)))
        (by rw [List.length_drop]; omega)
        (fun i hi => by
          rw [hnext]
          exact hok (i + 1) (by omega))
        (by simpa only [Function.comp_def, hnext] using htail)
        (fun i hi hmem => by
          rw [hnext] at hmem
          rcases (AList.mem_insert _).mp hmem with heq | hmem
          · refine hfresh (List.mem_map.mpr ⟨i, List.mem_range.mpr hi, ?_⟩)
            rw [hfirst]
            exact heq
          · exact hnew (i + 1) (by omega) hmem)
      have hread : readExact 48 rest = .ok (rest.take 48, rest.drop 48) := by
        rw [readExact, if_neg (by omega)]
      refine ⟨out, ?_⟩
      simp only [readEntries, hread, hcheck]
      exact hout

/-! ### The whole file -/

lemma openFile_eq {bytes rest : List UInt8} {h : Header} {entries : HashMap UInt64 TensorEntry}
    (hheader : readHeader bytes = .ok (h, rest))
    (hentries : readEntries h h.nTensors rest ∅ = .ok entries) :
    BqntFile.openFile bytes =
      .ok ⟨entries, h.nTensors, h.metadataOffset, h.metadataSize⟩ := by
  simp only [BqntFile.openFile, hheader, hentries]

/-- What an accepted file is like. -/
structure FileOk (bytes : List UInt8) (h : Header) (f : BqntFile) : Prop where
  header : HeaderOk bytes h
  nTensors : f.nTensors = h.nTensors
  metadataOffset : f.metadataOffset = h.metadataOffset
  metadataSize : f.metadataSize = h.metadataSize
  checked : ∀ i < h.nTensors, EntryChecked h (tableEntry bytes i)
  mem : ∀ p : Sigma fun _ : UInt64 => TensorEntry, p ∈ f.entries.entries ↔
    ∃ i < h.nTensors, p = ⟨(tableEntry bytes i).nameHash, tableEntry bytes i⟩
  hashes : ((List.range h.nTensors).map fun i => (tableEntry bytes i).nameHash).Nodup

lemma decodeEntry_drop (bytes : List UInt8) (i : ℕ) :
    decodeEntry (slice (bytes.drop 32) (i * 48) 48) = tableEntry bytes i := by
  rw [tableEntry, slice, slice, List.drop_drop]

/-- **An accepted file.** -/
lemma openFile_ok {bytes : List UInt8} {f : BqntFile} (hopen : BqntFile.openFile bytes = .ok f) :
    ∃ h, FileOk bytes h f := by
  rw [BqntFile.openFile] at hopen
  split at hopen
  · cases hopen
  rename_i h rest hheader
  split at hopen
  · cases hopen
  rename_i entries hentries
  obtain rfl := Except.ok.inj hopen
  obtain ⟨hok, rfl⟩ := readHeader_ok hheader
  obtain ⟨-, hall, hout⟩ := readEntries_ok hentries
  simp only [decodeEntry_drop] at hall hout
  rw [AList.empty_entries, List.append_nil] at hout
  refine ⟨h, hok, rfl, rfl, rfl, hall, fun p => ?_, ?_⟩
  · rw [hout, List.mem_reverse, List.mem_map]
    exact exists_congr fun i => and_congr List.mem_range eq_comm
  · have hkeys : (entries.entries.map Sigma.fst).Nodup := entries.nodupKeys
    rw [hout, List.map_reverse, List.nodup_reverse, List.map_map] at hkeys
    exact hkeys

/-- **A file is accepted** if its header and its entries are. -/
lemma openFile_of {bytes : List UInt8} {h : Header}
    (hheader : readHeader bytes = .ok (h, bytes.drop 32))
    (hok : ∀ i < h.nTensors, EntryChecked h (tableEntry bytes i))
    (hnodup : ((List.range h.nTensors).map fun i => (tableEntry bytes i).nameHash).Nodup) :
    ∃ f, BqntFile.openFile bytes = .ok f := by
  obtain ⟨hread, -⟩ := readHeader_ok hheader
  have hlen := hread.table_inside
  have hfile := hread.fileLen
  obtain ⟨out, hout⟩ : ∃ out, readEntries h h.nTensors (bytes.drop 32) ∅ = .ok out :=
    readEntries_of (by rw [List.length_drop]; omega)
    (fun i hi => by
      rw [decodeEntry_drop]
      exact (hok i hi).entryOk)
    (by simpa only [decodeEntry_drop] using hnodup)
    (fun i _ => AList.notMem_empty _)
  exact ⟨_, openFile_eq hheader hout⟩

end Braidinfer.Bqnt
