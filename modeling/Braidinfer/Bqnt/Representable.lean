/-
Which files of `BqntWriter` its own reader accepts and reads right (`bqnt.rs`).

The writer never refuses a tensor, whatever its rank, its size or its name, and however many
there are; only a hash collision of two names stops it.

* `Representable`: what the tensors and the reserved entries must be like;
* `Streamed`, `finish_streamed`: the bytes of any file of the writer, whether or not the entry
  table fits into the reserved region;
* `representable_of_readable`, `readable_of_representable`: the two directions;
* `readable_iff`: **every name reads back what was last written for it exactly if the input is
  representable**.
-/
import Braidinfer.Bqnt.RoundTrip

namespace Braidinfer.Bqnt

open Braidinfer.Lib

variable {N : Type}

/-! ### What is representable -/

/-- The bytes that were last written under a name. -/
def lastWritten (ts : List Tensor) (name : String) : Option (List UInt8) :=
  (ts.reverse.find? fun t => t.name = name).map (·.data)

/-- The file opens, and every name that was written has the bytes last written for it. -/
def Readable (json : SerdeJson N) (ts : List Tensor) (bytes : List UInt8) : Prop :=
  ∃ f, MmapBqnt.openMmap json bytes = .ok f ∧
    ∀ name data, lastWritten ts name = some data → f.tensorData name = some data

/-- The entries that the reader takes as reserved: `max_tensors` is written as a `u32`, and zero
stands for 4096. -/
def reservedOf (maxTensors : ℕ) : ℕ :=
  if maxTensors % 2 ^ 32 = 0 then 4096 else maxTensors % 2 ^ 32

/-- The tensors that the reader finds: their number is written as a `u32`. -/
def counted (maxTensors : ℕ) (ts : List Tensor) : List (ℕ × Tensor) :=
  (placed (dataStart maxTensors) ts).take (ts.length % 2 ^ 32)

/-- The bytes at `a` after the table has been written over the start of the file. -/
def covered (table : List UInt8) (a : ℕ) (data : List UInt8) : List UInt8 :=
  slice table (a - 32) data.length ++ data.drop (32 + table.length - a)

/-- **What the format can represent.**  There is a tensor; the reserved region, as the reader
finds it, ends before the data; the tensors whose entries are counted have a plausible rank,
the packed size and distinct hashes; and the last bytes of every name are those of a counted
tensor of that name, as the entry table leaves them. -/
structure Representable (maxTensors : ℕ) (ts : List Tensor) : Prop where
  nonempty : ts ≠ []
  region : (tableEnd (reservedOf maxTensors)).toNat ≤ dataStart maxTensors
  rank : ∀ p ∈ counted maxTensors ts, p.2.ndim ≤ 16
  size : ∀ p ∈ counted maxTensors ts,
    p.2.data.length = packedSize p.2.format p.2.outFeatures.toNat p.2.inFeatures.toNat
  hashes : ((counted maxTensors ts).map fun p => fnv1a64 p.2.name).Nodup
  kept : ∀ name data, lastWritten ts name = some data →
    ∃ p ∈ counted maxTensors ts, p.2.name = name ∧
      covered (entryTable maxTensors ts) p.1 p.2.data = data

/-- The positions of the file are file offsets, below `2 ^ 63`: a call fails that seeks to or
writes at a position past them. -/
structure Offsets (maxTensors : ℕ) (ts : List Tensor) (text : List UInt8) : Prop where
  data : ts ≠ [] → fileEnd maxTensors ts text < 2 ^ 63
  table : 32 + ts.length * 48 < 2 ^ 63
  text : text.length < 2 ^ 63

lemma exists_of_lastWritten {ts : List Tensor} {name : String} {data : List UInt8}
    (h : lastWritten ts name = some data) : ∃ t ∈ ts, t.name = name ∧ t.data = data := by
  obtain ⟨t, ht, hdata⟩ := Option.map_eq_some_iff.mp h
  have hname := List.find?_some ht
  exact ⟨t, List.mem_reverse.mp (List.mem_of_find?_eq_some ht), of_decide_eq_true hname, hdata⟩

lemma lastWritten_of_mem {ts : List Tensor} {t : Tensor} (ht : t ∈ ts) :
    ∃ data, lastWritten ts t.name = some data := by
  have hsome : (ts.reverse.find? fun u => u.name = t.name).isSome = true :=
    List.find?_isSome.mpr ⟨t, List.mem_reverse.mpr ht, decide_eq_true rfl⟩
  obtain ⟨u, hu⟩ := Option.isSome_iff_exists.mp hsome
  exact ⟨u.data, by rw [lastWritten, hu]; rfl⟩

lemma reservedOf_lt (maxTensors : ℕ) : reservedOf maxTensors < 2 ^ 32 := by
  rw [reservedOf]
  split
  · decide
  · exact Nat.mod_lt _ (by decide)

/-- The region that is reserved for the header and the table is aligned. -/
lemma ceilTo_dataStart (maxTensors : ℕ) :
    ceilTo alignment.toNat (dataStart maxTensors) = dataStart maxTensors := by
  have hone : (alignment - 1).toNat = 2 ^ 16 - 1 := rfl
  obtain ⟨x, hx, hmask⟩ : ∃ x, x < 2 ^ 64 ∧
      dataStart maxTensors = x &&& (2 ^ 64 - 1 - (2 ^ 16 - 1)) := by
    refine ⟨(headerSize + UInt64.ofNat maxTensors * entrySize + alignment - 1).toNat,
      UInt64.toNat_lt _, ?_⟩
    rw [dataStart, tableEnd, alignUp, UInt64.toNat_and, UInt64.toNat_not, hone]
    rfl
  rw [hmask, and_mask x hx (by decide), ceilTo]
  have halign : alignment.toNat = 65536 := rfl
  rw [halign]
  omega

/-- A range of a file after `a` was written over its beginning. -/
lemma slice_overwritten {α : Type*} (a l : List α) (off n : ℕ) :
    slice (a ++ l.drop a.length) off n =
      slice a off n ++ (slice l off n).drop (a.length - off) := by
  have hsplit : (a ++ l.drop a.length).drop off =
      a.drop off ++ (l.drop off).drop (a.length - off) := by
    rw [List.drop_append, List.drop_drop, List.drop_drop]
    congr 2
    omega
  rw [slice, hsplit, List.take_append, slice, slice, List.length_drop, List.drop_take]

/-- The entries of a table, one after the other. -/
lemma slice_encodeTable {es : List TensorEntry} {i : ℕ} {e : TensorEntry} (he : es[i]? = some e)
    (rest : List UInt8) : slice (encodeTable es ++ rest) (i * 48) 48 = encodeEntry e := by
  induction es generalizing i with
  | nil => cases he
  | cons e' es ih =>
      rw [encodeTable, List.flatMap_cons, List.append_assoc, slice]
      cases i with
      | zero =>
          obtain rfl := Option.some.inj he
          rw [Nat.zero_mul, List.drop_zero]
          exact List.take_left' (length_encodeEntry e')
      | succ i =>
          have hdrop : (i + 1) * 48 = (encodeEntry e').length + i * 48 := by
            rw [length_encodeEntry]
            ring
          rw [hdrop, ← List.drop_drop, List.drop_left]
          exact ih he

/-- The entry with index `i` of a file that starts with a header and a table. -/
lemma tableEntry_encode {n maxTensors : ℕ} {offset size : UInt64} {es : List TensorEntry} {i : ℕ}
    {e : TensorEntry} (he : es[i]? = some e) (rest : List UInt8) :
    tableEntry (encodeHeader n maxTensors offset size ++ (encodeTable es ++ rest)) i = e := by
  rw [← decodeEntry_drop, List.drop_left' (length_encodeHeader n maxTensors offset size),
    slice_encodeTable he, decodeEntry_encodeEntry]

/-- The bytes of a tensor in a file, as the table leaves them. -/
lemma slice_fileFront {maxTensors : ℕ} {ts : List Tensor} {offset : UInt64} {size : ℕ}
    {s : List UInt8} {a : ℕ} {data : List UInt8} (ha : 32 ≤ a)
    (hdata : slice s a data.length = data) :
    slice (fileFront maxTensors ts offset size ++
      s.drop (fileFront maxTensors ts offset size).length) a data.length =
        covered (entryTable maxTensors ts) a data := by
  have hfront : slice (fileFront maxTensors ts offset size) a data.length =
      slice (entryTable maxTensors ts) (a - 32) data.length := by
    have hdrop : a = (encodeHeader ts.length maxTensors offset (UInt64.ofNat size)).length +
        (a - 32) := by
      rw [length_encodeHeader]
      omega
    rw [slice, fileFront, hdrop, ← List.drop_drop, List.drop_left, ← hdrop, slice]
  rw [slice_overwritten, hdata, hfront, covered, length_fileFront, length_entryTable]

/-- A tensor lies at an aligned offset. -/
lemma aligned_of_placed {off a : ℕ} {t : Tensor} {ts : List Tensor} (h : (a, t) ∈ placed off ts) :
    ∃ k, a = k * 65536 := by
  induction ts generalizing off with
  | nil => cases h
  | cons u ts ih =>
      rw [placed] at h
      rcases List.mem_cons.mp h with heq | h
      · exact ⟨_, congrArg Prod.fst heq⟩
      · exact ih h

/-- **Ten bytes of the table, from a multiple of eight on, contain a zero**: the padding behind
the format, the low byte of the offset, or the reserved last field. -/
lemma zero_mem_table {maxTensors : ℕ} {ts : List Tensor} {o n : ℕ} (hdvd : o % 8 = 0)
    (hlt : o < (entryTable maxTensors ts).length) (hn : 10 ≤ n) (rest : List UInt8) :
    (0 : UInt8) ∈ slice (entryTable maxTensors ts ++ rest) o n := by
  rw [length_entryTable] at hlt
  have hi : o / 48 < ts.length := by omega
  obtain ⟨⟨a, t⟩, hp⟩ : ∃ p, (placed (dataStart maxTensors) ts)[o / 48]? = some p :=
    ⟨_, List.getElem?_eq_getElem (by rw [length_placed]; exact hi)⟩
  have hentry : ((placed (dataStart maxTensors) ts).map entryOf)[o / 48]? =
      some (entryOf (a, t)) := by rw [List.getElem?_map, hp]; rfl
  have hslice := slice_encodeTable hentry rest
  -- a zero of the entry at `q` is one of the range, if `q` lies in it
  have hmem : ∀ q, o ≤ o / 48 * 48 + q → o / 48 * 48 + q < o + n → q < 48 →
      (encodeEntry (entryOf (a, t)))[q]? = some 0 →
      (0 : UInt8) ∈ slice (entryTable maxTensors ts ++ rest) o n := by
    intro q hq hq' h48 hzero
    rw [← hslice, slice, List.getElem?_take_of_lt h48, List.getElem?_drop] at hzero
    refine @List.mem_of_getElem? _ _ (o / 48 * 48 + q - o) _ ?_
    rw [slice, List.getElem?_take_of_lt (by omega), List.getElem?_drop, Nat.add_sub_of_le hq]
    exact hzero
  have h9 : (encodeEntry (entryOf (a, t)))[9]? = some 0 := rfl
  have h40 : (encodeEntry (entryOf (a, t)))[40]? = some 0 := rfl
  have h24 : (encodeEntry (entryOf (a, t)))[24]? = some 0 := by
    have hlow : (encodeEntry (entryOf (a, t)))[24]? =
        some (UInt8.ofNat (UInt64.ofNat a).toNat) := rfl
    obtain ⟨k, rfl⟩ := aligned_of_placed (List.mem_of_getElem? hp)
    refine hlow.trans (congrArg some (UInt8.toNat_inj.mp ?_))
    rw [UInt8.toNat_ofNat', UInt64.toNat_ofNat']
    change k * 65536 % 2 ^ 64 % 2 ^ 8 = 0
    omega
  by_cases hfirst : o % 48 ≤ 8
  · exact hmem 9 (by omega) (by omega) (by decide) h9
  · by_cases hsecond : o % 48 ≤ 24
    · exact hmem 24 (by omega) (by omega) (by decide) h24
    · exact hmem 40 (by omega) (by omega) (by decide) h40

lemma mem_counted {maxTensors : ℕ} {ts : List Tensor} {p : ℕ × Tensor} :
    p ∈ counted maxTensors ts ↔
      ∃ i < ts.length % 2 ^ 32, (placed (dataStart maxTensors) ts)[i]? = some p := by
  rw [counted, List.mem_iff_getElem?]
  refine exists_congr fun i => ?_
  rw [List.getElem?_take]
  split_ifs with hi
  · exact ⟨fun h => ⟨hi, h⟩, fun h => h.2⟩
  · exact ⟨fun h => (by cases h), fun h => absurd h.1 hi⟩

/-- What the reader finds in the header of a file. -/
lemma header_of_fields {bytes : List UInt8} {n maxTensors : ℕ} {offset size : UInt64}
    (hf : HeaderFields bytes n maxTensors offset size) :
    (u32At bytes 8).toNat = n % 2 ^ 32 ∧ reservedEntries bytes = reservedOf maxTensors := by
  refine ⟨by rw [hf.nTensors, UInt32.toNat_ofNat'], ?_⟩
  rw [reservedEntries, hf.reserved, UInt32.toNat_ofNat', reservedOf]

namespace Streamed

variable {maxTensors : ℕ} {ts : List Tensor} {text : List UInt8} {offset : UInt64}
  {s : List UInt8} {bytes : List UInt8} {a : ℕ} {t : Tensor}

/-- The positions of a tensor fit in 64 bits. -/
lemma toNat_entryOf (hs : Streamed maxTensors ts text offset s)
    (hfits : fileEnd maxTensors ts text < 2 ^ 64)
    (hp : (a, t) ∈ placed (dataStart maxTensors) ts) :
    (entryOf (a, t)).dataOffset.toNat = a ∧ (entryOf (a, t)).dataBytes.toNat = t.data.length := by
  obtain ⟨-, hend, -⟩ := hs.data a t hp
  have hceil := le_ceilTo (by decide : 0 < 8) (dataEnd (dataStart maxTensors) ts)
  rw [fileEnd] at hfits
  exact ⟨UInt64.toNat_ofNat_of_lt' (by change a < 2 ^ 64; omega),
    UInt64.toNat_ofNat_of_lt' (by change t.data.length < 2 ^ 64; omega)⟩

/-- The fields of the header. -/
lemma headerFields (hbytes : bytes = fileFront maxTensors ts offset text.length ++
      s.drop (fileFront maxTensors ts offset text.length).length) :
    HeaderFields bytes ts.length maxTensors offset (UInt64.ofNat text.length) := by
  rw [hbytes, fileFront, List.append_assoc]
  exact headerFields_encodeHeader _ _ _ _ _

/-- The entries of the table. -/
lemma tableEntry_eq (hbytes : bytes = fileFront maxTensors ts offset text.length ++
      s.drop (fileFront maxTensors ts offset text.length).length) {i : ℕ} {p : ℕ × Tensor}
    (hp : (placed (dataStart maxTensors) ts)[i]? = some p) :
    tableEntry bytes i = entryOf p := by
  rw [hbytes, fileFront, List.append_assoc]
  exact tableEntry_encode (by rw [List.getElem?_map, hp]; rfl) _

/-- The hashes of the entries that are counted. -/
lemma hashes_eq (hbytes : bytes = fileFront maxTensors ts offset text.length ++
      s.drop (fileFront maxTensors ts offset text.length).length) :
    ((List.range (ts.length % 2 ^ 32)).map fun i => (tableEntry bytes i).nameHash) =
      (counted maxTensors ts).map fun p => fnv1a64 p.2.name := by
  have hle : ts.length % 2 ^ 32 ≤ ts.length := Nat.mod_le _ _
  refine List.ext_getElem? fun i => ?_
  rw [List.getElem?_map, List.getElem?_map, counted, List.getElem?_take]
  split_ifs with hi
  · obtain ⟨p, hp⟩ : ∃ p, (placed (dataStart maxTensors) ts)[i]? = some p :=
      ⟨_, List.getElem?_eq_getElem (by rw [length_placed]; omega)⟩
    rw [List.getElem?_range hi, hp, Option.map_some, Option.map_some, tableEntry_eq hbytes hp]
    rfl
  · rw [List.getElem?_eq_none (by rw [List.length_range]; omega)]
    rfl

end Streamed

/-! ### A file that reads back is representable -/

lemma writeFile_ok {json : SerdeJson N}
    {iter : HashMap UInt64 String → List (Sigma fun _ : UInt64 => String)} {maxTensors : ℕ}
    {ts : List Tensor} {metadataJson : String} {w : BqntWriter} {bytes : List UInt8}
    (h : writeFile json iter maxTensors ts metadataJson = .ok (w, bytes)) :
    (BqntWriter.create maxTensors).writeTensors ts = .ok w ∧
      bytes = w.finish json iter metadataJson := by
  rw [writeFile] at h
  split at h
  · cases h
  rename_i w' hw'
  obtain ⟨rfl, rfl⟩ := Prod.mk.inj (Except.ok.inj h)
  exact ⟨hw', rfl⟩

lemma openMmap_ok {json : SerdeJson N} {bytes : List UInt8} {f : MmapBqnt}
    (h : MmapBqnt.openMmap json bytes = .ok f) :
    BqntFile.openFile bytes = .ok f.header ∧ f.mmap = bytes ∧
      f.nameTable = MmapBqnt.readNameTable json bytes f.header := by
  rw [MmapBqnt.openMmap] at h
  split at h
  · cases h
  rename_i header hheader
  obtain rfl := Except.ok.inj h
  exact ⟨hheader, rfl, rfl⟩

/-- A name with data has an entry, and the data is that of the entry. -/
lemma exists_entry_of_tensorData {f : MmapBqnt} {name : String} {data : List UInt8}
    (h : f.tensorData name = some data) :
    ∃ e, f.header.get name = some e ∧ f.entryData e = some data := by
  rw [MmapBqnt.tensorData] at h
  split at h
  · cases h
  rename_i e he
  refine ⟨e, he, ?_⟩
  split at h
  · split_ifs at h with hstored
    exact h
  · exact h

/-- The entry of a name is one of the table, with the hash of the name. -/
lemma FileOk.exists_of_get {bytes : List UInt8} {h : Header} {f : BqntFile} (hok : FileOk bytes h f)
    {name : String} {e : TensorEntry} (hget : f.get name = some e) :
    ∃ i < h.nTensors, e = tableEntry bytes i ∧ e.nameHash = fnv1a64 name := by
  obtain ⟨i, hi, heq⟩ := (hok.mem ⟨fnv1a64 name, e⟩).mp (AList.mem_lookup_iff.mp hget)
  have he : e = tableEntry bytes i := congrArg Sigma.snd heq
  have hhash : fnv1a64 name = (tableEntry bytes i).nameHash := congrArg Sigma.fst heq
  exact ⟨i, hi, he, by rw [he, hhash]⟩

section Directions

variable {json : SerdeJson N}
  {iter : HashMap UInt64 String → List (Sigma fun _ : UInt64 => String)} {maxTensors : ℕ}
  {ts : List Tensor} {metadataJson : String} {w : BqntWriter} {bytes : List UInt8}

/-- **A file without tensors is refused**: its metadata is at zero. -/
lemma nonempty_of_open (hw : (BqntWriter.create maxTensors).writeTensors ts = .ok w)
    (hne : json.toString (w.augmentedMetadata json iter metadataJson) ≠ "")
    (htext : (utf8 (json.toString (w.augmentedMetadata json iter metadataJson))).length < 2 ^ 64)
    {f : BqntFile} (hopen : BqntFile.openFile (w.finish json iter metadataJson) = .ok f) :
    ts ≠ [] := by
  rintro rfl
  obtain ⟨h, hok⟩ := openFile_ok hopen
  have hf := headerFields_finish json iter w metadataJson
  set text := utf8 (json.toString (w.augmentedMetadata json iter metadataJson))
  have hoffset : alignUp w.currentOffset 8 = 0 := by
    rw [← Except.ok.inj hw]
    change alignUp 0 8 = 0
    decide
  have hsize : (UInt64.ofNat text.length).toNat = text.length := UInt64.toNat_ofNat_of_lt' htext
  have hpos : 0 < text.length := List.length_pos_iff.mpr (utf8_ne_nil hne)
  have hbehind := hok.header.metadata_behind
  rw [hok.header.metadataSize, hok.header.metadataOffset, hok.header.tableEnd, hf.metadataSize,
    hf.metadataOffset, (header_of_fields hf).2, hoffset] at hbehind
  have hle := le_tableEnd (reservedOf_lt w.maxTensors)
  have hzero := hbehind fun h0 => by
    rw [h0] at hsize
    change 0 = text.length at hsize
    omega
  change _ ≤ 0 at hzero
  omega

/-- **A file whose data starts at zero is refused.** -/
lemma tableEnd_ne_zero_of_readable
    (hwrite : writeFile json iter maxTensors ts metadataJson = .ok (w, bytes)) (hts : ts ≠ [])
    (hread : Readable json ts bytes) : tableEnd maxTensors ≠ 0 := by
  intro hzero
  obtain ⟨hw, hbytes⟩ := writeFile_ok hwrite
  obtain ⟨f, hopen, hnames⟩ := hread
  obtain ⟨h, hok⟩ := openFile_ok (openMmap_ok hopen).1
  obtain ⟨rest, hfront⟩ := BqntWriter.finish_front json iter w metadataJson
  obtain ⟨t, ts, rfl⟩ := List.exists_cons_of_ne_nil hts
  obtain ⟨e, es, hentries, hoffset⟩ := BqntWriter.first_entry hw
  -- the first name has an entry, so at least one is counted
  obtain ⟨data, hdata⟩ := lastWritten_of_mem (List.mem_cons_self (a := t) (l := ts))
  obtain ⟨e', hget, -⟩ := exists_entry_of_tensorData (hnames _ _ hdata)
  obtain ⟨i, hi, -⟩ := hok.exists_of_get hget
  have hfirst : tableEntry bytes 0 = e := by
    rw [hbytes, hfront, BqntWriter.front, List.append_assoc]
    exact tableEntry_encode (by rw [hentries]; rfl) _
  have hf := headerFields_finish json iter w metadataJson
  rw [← hbytes] at hf
  have hbehind := (hok.checked 0 (by omega)).behind
  rw [hfirst, hoffset, hzero, hok.header.tableEnd, (header_of_fields hf).2] at hbehind
  have hle := le_tableEnd (reservedOf_lt w.maxTensors)
  have hnil : (alignUp 0 alignment).toNat = 0 := by decide
  omega

/-- What the reader has checked of the tensors it counted. -/
structure CountedOk (maxTensors : ℕ) (ts : List Tensor) (h : Header) : Prop where
  entry : ∀ {i : ℕ} {p : ℕ × Tensor}, (placed (dataStart maxTensors) ts)[i]? = some p →
    i < ts.length % 2 ^ 32 → EntryChecked h (entryOf p)
  size : ∀ p ∈ counted maxTensors ts,
    p.2.data.length = packedSize p.2.format p.2.outFeatures.toNat p.2.inFeatures.toNat
  hashes : ((counted maxTensors ts).map fun p => fnv1a64 p.2.name).Nodup

lemma CountedOk.rank {h : Header} (hc : CountedOk maxTensors ts h) :
    ∀ p ∈ counted maxTensors ts, p.2.ndim ≤ 16 := by
  intro p hp
  obtain ⟨i, hi, hpi⟩ := mem_counted.mp hp
  exact (hc.entry hpi hi).rank

/-- **An open file has checked every tensor it counts.** -/
lemma countedOk_of_open {text : List UInt8} {offset : UInt64} {s : List UInt8} {f : BqntFile}
    {h : Header} (hs : Streamed maxTensors ts text offset s)
    (hfits : fileEnd maxTensors ts text < 2 ^ 64)
    (hbytes : bytes = fileFront maxTensors ts offset text.length ++
      s.drop (fileFront maxTensors ts offset text.length).length)
    (hok : FileOk bytes h f) :
    h.nTensors = ts.length % 2 ^ 32 ∧ CountedOk maxTensors ts h := by
  have hn : h.nTensors = ts.length % 2 ^ 32 :=
    hok.header.nTensors.trans (header_of_fields (Streamed.headerFields hbytes)).1
  have hentry : ∀ {i : ℕ} {p : ℕ × Tensor}, (placed (dataStart maxTensors) ts)[i]? = some p →
      i < ts.length % 2 ^ 32 → EntryChecked h (entryOf p) := by
    intro i p hp hi
    rw [← Streamed.tableEntry_eq hbytes hp]
    exact hok.checked i (by rw [hn]; exact hi)
  refine ⟨hn, hentry, fun p hp => ?_, ?_⟩
  · obtain ⟨i, hi, hpi⟩ := mem_counted.mp hp
    obtain ⟨format, hformat, hsize⟩ := (hentry hpi hi).size
    rw [(hs.toNat_entryOf hfits (List.mem_of_getElem? hpi)).2] at hsize
    have hsame : some p.2.format = some format :=
      (codeToFormat_formatToCode p.2.format).symm.trans hformat
    rw [hsize, Option.some.inj hsame]
    rfl
  · have hhashes := hok.hashes
    rw [hn, Streamed.hashes_eq hbytes] at hhashes
    exact hhashes

/-- **A file that reads back is representable.** -/
lemma representable_of_readable
    (hwrite : writeFile json iter maxTensors ts metadataJson = .ok (w, bytes))
    (hne : json.toString (w.augmentedMetadata json iter metadataJson) ≠ "")
    (hoff : Offsets maxTensors ts
      (utf8 (json.toString (w.augmentedMetadata json iter metadataJson))))
    (hread : Readable json ts bytes) : Representable maxTensors ts := by
  obtain ⟨hw, hfinish⟩ := writeFile_ok hwrite
  obtain ⟨f, hopen, hnames⟩ := hread
  obtain ⟨hfile, hmmap, -⟩ := openMmap_ok hopen
  have hts := nonempty_of_open hw hne (lt_trans hoff.text (by decide)) (by
    rw [← hfinish]
    exact hfile)
  have hpos := tableEnd_ne_zero_of_readable hwrite hts ⟨f, hopen, hnames⟩
  obtain ⟨h, hok⟩ := openFile_ok hfile
  have hfits : fileEnd maxTensors ts
      (utf8 (json.toString (w.augmentedMetadata json iter metadataJson))) < 2 ^ 64 :=
    lt_trans (hoff.data hts) (by decide)
  obtain ⟨hentries, offset, s, hs, hbytes⟩ := finish_streamed iter hw hts hpos rfl (utf8_ne_nil hne)
    hfits
  rw [← hfinish] at hbytes
  have hreserved := (header_of_fields (Streamed.headerFields hbytes)).2
  obtain ⟨hn, hc⟩ := countedOk_of_open hs hfits hbytes hok
  have hregion : (tableEnd (reservedOf maxTensors)).toNat ≤ dataStart maxTensors := by
    obtain ⟨t, ts, rfl⟩ := List.exists_cons_of_ne_nil hts
    obtain ⟨data, hdata⟩ := lastWritten_of_mem (List.mem_cons_self (a := t) (l := ts))
    obtain ⟨e, hget, -⟩ := exists_entry_of_tensorData (hnames _ _ hdata)
    obtain ⟨i, hi, -⟩ := hok.exists_of_get hget
    have hfirst : (placed (dataStart maxTensors) (t :: ts))[0]? =
        some (dataStart maxTensors, t) := by
      rw [placed, ceilTo_dataStart]
      rfl
    have hbehind := (hc.entry hfirst (by omega)).behind
    rw [(hs.toNat_entryOf hfits (List.mem_of_getElem? hfirst)).1, hok.header.tableEnd,
      hreserved] at hbehind
    exact hbehind
  have hle := le_tableEnd (reservedOf_lt maxTensors)
  refine ⟨hts, hregion, hc.rank, hc.size, hc.hashes, fun name data hdata => ?_⟩
  obtain ⟨e, hget, hbytesOf⟩ := exists_entry_of_tensorData (hnames _ _ hdata)
  obtain ⟨i, hi, he, hhash⟩ := hok.exists_of_get hget
  rw [hn] at hi
  obtain ⟨⟨a, t⟩, hp⟩ : ∃ p, (placed (dataStart maxTensors) ts)[i]? = some p :=
    ⟨_, List.getElem?_eq_getElem (by
      rw [length_placed]
      exact lt_of_lt_of_le hi (Nat.mod_le _ _))⟩
  have hmem := List.mem_of_getElem? hp
  rw [Streamed.tableEntry_eq hbytes hp] at he
  obtain ⟨haN, hlenN⟩ := hs.toNat_entryOf hfits hmem
  obtain ⟨hstart, -, hslice⟩ := hs.data a t hmem
  refine ⟨(a, t), mem_counted.mpr ⟨i, hi, hp⟩, ?_, ?_⟩
  · obtain ⟨u, hu, huname, -⟩ := exists_of_lastWritten hdata
    have ht : t ∈ ts := by
      rw [← placed_map_snd (dataStart maxTensors) ts]
      exact List.mem_map.mpr ⟨_, hmem, rfl⟩
    rw [← huname]
    refine (BqntWriter.names_of_writeTensors hw).2 t ht u hu ?_
    rw [huname, ← hhash, he]
    rfl
  · rw [he, MmapBqnt.entryData, hmmap, haN, hlenN] at hbytesOf
    split_ifs at hbytesOf
    rw [hbytes, slice_fileFront (by omega) hslice] at hbytesOf
    exact Option.some.inj hbytesOf

/-- The tensors of a file whose entries are all counted. -/
lemma counted_eq (hcount : ts.length < 2 ^ 32) :
    counted maxTensors ts = placed (dataStart maxTensors) ts := by
  rw [counted, Nat.mod_eq_of_lt hcount, List.take_of_length_le (length_placed _ _).le]

/-- **A file that opens is made of writable tensors**, if there are as many entries as were
reserved. -/
lemma writable_of_open (hw : (BqntWriter.create maxTensors).writeTensors ts = .ok w)
    (hcount : ts.length ≤ maxTensors) (hmax : maxTensors < 2 ^ 32)
    (hne : json.toString (w.augmentedMetadata json iter metadataJson) ≠ "")
    (hoff : Offsets maxTensors ts
      (utf8 (json.toString (w.augmentedMetadata json iter metadataJson))))
    {f : BqntFile} (hopen : BqntFile.openFile (w.finish json iter metadataJson) = .ok f) :
    Writable maxTensors ts := by
  have hts := nonempty_of_open hw hne (lt_trans hoff.text (by decide)) hopen
  have hfits := lt_trans (hoff.data hts) (by decide : 2 ^ 63 < 2 ^ 64)
  obtain ⟨h, hok⟩ := openFile_ok hopen
  obtain ⟨-, offset, s, hs, hbytes⟩ := finish_streamed iter hw hts (tableEnd_ne_zero hmax) rfl
    (utf8_ne_nil hne) hfits
  obtain ⟨-, hc⟩ := countedOk_of_open hs hfits hbytes hok
  have hcounted : counted maxTensors ts = placed (dataStart maxTensors) ts :=
    counted_eq (lt_of_le_of_lt hcount hmax)
  have hmem : ∀ t ∈ ts, ∃ a, (a, t) ∈ counted maxTensors ts := fun t ht => by
    rw [← placed_map_snd (dataStart maxTensors) ts, ← hcounted] at ht
    obtain ⟨⟨a, t'⟩, hp, rfl⟩ := List.mem_map.mp ht
    exact ⟨a, hp⟩
  refine ⟨hts, ?_, fun t ht => ?_, fun t ht => ?_, hcount, hmax⟩
  · have hhashes := hc.hashes
    rw [hcounted] at hhashes
    rw [← placed_map_snd (dataStart maxTensors) ts, List.map_map]
    exact hhashes
  · obtain ⟨a, ha⟩ := hmem t ht
    exact hc.rank _ ha
  · obtain ⟨a, ha⟩ := hmem t ht
    exact hc.size _ ha

end Directions

/-! ### A representable file reads back -/

/-- Every name is in the map of names, if names of one hash are equal. -/
lemma lookup_addNames {ts : List Tensor} {t : Tensor} (ht : t ∈ ts)
    (hsame : ∀ t ∈ ts, ∀ u ∈ ts, fnv1a64 t.name = fnv1a64 u.name → t.name = u.name) :
    (addNames ∅ ts).lookup (fnv1a64 t.name) = some t.name := by
  have hfold : ∀ (us : List Tensor) (names : HashMap UInt64 String),
      (∀ u ∈ us, fnv1a64 u.name = fnv1a64 t.name → u.name = t.name) →
      (names.lookup (fnv1a64 t.name) = some t.name ∨
        ∃ u ∈ us, fnv1a64 u.name = fnv1a64 t.name) →
      (addNames names us).lookup (fnv1a64 t.name) = some t.name := by
    intro us
    induction us with
    | nil => exact fun names _ h => h.resolve_right (by simp)
    | cons u us ih =>
        intro names hus h
        refine ih (names.insert (fnv1a64 u.name) u.name)
          (fun v hv => hus v (List.mem_cons_of_mem _ hv)) ?_
        by_cases heq : fnv1a64 u.name = fnv1a64 t.name
        · rw [← heq, hus u List.mem_cons_self heq]
          exact .inl (AList.lookup_insert _)
        · rw [AList.lookup_insert_ne (Ne.symm heq)]
          refine h.imp_right ?_
          rintro ⟨v, hv, hvt⟩
          rcases List.mem_cons.mp hv with rfl | hv
          · exact absurd hvt heq
          · exact ⟨v, hv, hvt⟩
  exact hfold ts ∅ (fun u hu heq => hsame u hu t ht heq) (.inr ⟨t, ht, rfl⟩)

lemma utf8_of_fromUtf8 {bytes : List UInt8} {s : String} (h : fromUtf8 bytes = some s) :
    utf8 s = bytes := by
  rw [fromUtf8, String.fromUTF8?] at h
  split_ifs at h with hvalid
  rw [← Option.some.inj h]
  rfl

lemma eq_object_of_asObject {v : Json N} {members : List (String × Json N)}
    (h : v.asObject = some members) : v = .object members := by
  cases v <;> cases h
  rfl

/-- Where a name table comes from. -/
lemma exists_of_readNameTable {json : SerdeJson N} {mmap : List UInt8} {header : BqntFile}
    {table : HashMap UInt64 String} (h : MmapBqnt.readNameTable json mmap header = some table) :
    ∃ s v members, utf8 s = slice mmap header.metadataOffset.toNat header.metadataSize.toNat ∧
      json.fromStr s = some v ∧ v.get "name_table" = some (.object members) ∧
      table = members.foldl MmapBqnt.insertName ∅ := by
  rw [MmapBqnt.readNameTable] at h
  split_ifs at h
  obtain ⟨s, hs, h⟩ := Option.bind_eq_some_iff.mp h
  obtain ⟨v, hv, h⟩ := Option.bind_eq_some_iff.mp h
  obtain ⟨t, ht, h⟩ := Option.bind_eq_some_iff.mp h
  obtain ⟨members, hmembers, h⟩ := Option.bind_eq_some_iff.mp h
  refine ⟨s, v, members, utf8_of_fromUtf8 hs, hv, ?_, (Option.some.inj h).symm⟩
  rw [ht, eq_object_of_asObject hmembers]

section Directions

variable {json : SerdeJson N}
  {iter : HashMap UInt64 String → List (Sigma fun _ : UInt64 => String)} {maxTensors : ℕ}
  {ts : List Tensor} {metadataJson : String} {w : BqntWriter} {bytes : List UInt8}

/-- **The name table has every name under its hash**, if there is one.  Either the metadata is as
it was written, or the entry table lies on some of it, and then it has a zero byte or less than
ten bytes. -/
lemma stored_name (hiter : ∀ names, (iter names).Perm names.entries)
    (hw : (BqntWriter.create maxTensors).writeTensors ts = .ok w)
    (hparse : ∃ v, json.fromStr (json.toString (w.augmentedMetadata json iter metadataJson)) =
      some v ∧ v.get "name_table" = (w.augmentedMetadata json iter metadataJson).get "name_table")
    (hgrammar : ∀ s v members, json.fromStr s = some v →
      v.get "name_table" = some (.object members) → 10 ≤ (utf8 s).length ∧ 0 ∉ utf8 s)
    {offset : UInt64} {s : List UInt8}
    (hs : Streamed maxTensors ts
      (utf8 (json.toString (w.augmentedMetadata json iter metadataJson))) offset s)
    (htext : (utf8 (json.toString (w.augmentedMetadata json iter metadataJson))).length < 2 ^ 64)
    (hbehind : 32 ≤ offset.toNat)
    (hbytes : bytes = fileFront maxTensors ts offset
        (utf8 (json.toString (w.augmentedMetadata json iter metadataJson))).length ++
      s.drop (fileFront maxTensors ts offset
        (utf8 (json.toString (w.augmentedMetadata json iter metadataJson))).length).length)
    {header : BqntFile} (hoffset : header.metadataOffset = offset)
    (hsize : header.metadataSize = UInt64.ofNat
      (utf8 (json.toString (w.augmentedMetadata json iter metadataJson))).length)
    {t : Tensor} (ht : t ∈ ts) {stored : String}
    (hstored : ((MmapBqnt.readNameTable json bytes header).bind fun t' =>
      t'.lookup (fnv1a64 t.name)) = some stored) : stored = t.name := by
  set text := utf8 (json.toString (w.augmentedMetadata json iter metadataJson)) with htextEq
  obtain ⟨table, htable, hlookup⟩ := Option.bind_eq_some_iff.mp hstored
  obtain ⟨str, v, members, hstr, hv, hget, rfl⟩ := exists_of_readNameTable htable
  have hn : (UInt64.ofNat text.length).toNat = text.length := UInt64.toNat_ofNat_of_lt' htext
  rw [hoffset, hsize, hn] at hstr
  obtain ⟨hten, hzero⟩ := hgrammar str v members hv hget
  by_cases hle : (fileFront maxTensors ts offset text.length).length ≤ offset.toNat
  · -- the metadata is the one of the writer
    rw [hbytes, slice_overwrite hle, hs.metadata] at hstr
    obtain ⟨v', hv', hget'⟩ := hparse
    have hsame : str = json.toString (w.augmentedMetadata json iter metadataJson) := by
      have hfrom := fromUtf8_utf8 str
      rw [hstr, htextEq, fromUtf8_utf8] at hfrom
      exact (Option.some.inj hfrom).symm
    rw [hsame, hv'] at hv
    rw [← Option.some.inj hv, hget', BqntWriter.augmentedMetadata] at hget
    have hnodup : (iter w.names).NodupKeys :=
      (List.perm_nodupKeys (hiter _)).mpr (AList.nodupKeys _)
    have hmembers : members = BqntWriter.nameTable (iter w.names) := by
      split at hget
      · rename_i members' _
        have hself : (Json.object (Json.insert "name_table"
            (.object (BqntWriter.nameTable (iter w.names))) members')).get "name_table" =
            some (.object (BqntWriter.nameTable (iter w.names))) := Json.lookup_insert_self
        rw [hself] at hget
        exact (Json.object.inj (Option.some.inj hget)).symm
      · rename_i hnot
        obtain ⟨ms, hms, -⟩ := Option.bind_eq_some_iff.mp hget
        exact absurd (eq_object_of_asObject hms) (hnot ms)
    rw [hmembers] at hlookup
    have hmem := (nameTable_spec hnodup).mem_iff.mp (AList.mem_lookup_iff.mp hlookup)
    have hmem' := AList.mem_lookup_iff.mpr ((hiter w.names).mem_iff.mp hmem)
    have hnames : w.names = addNames ∅ ts := (BqntWriter.entries_of_writeTensors hw).2.2.2
    rw [hnames, lookup_addNames ht (BqntWriter.names_of_writeTensors hw).2] at hmem'
    exact (Option.some.inj hmem').symm
  · -- the entry table lies on the metadata
    exfalso
    rw [length_fileFront] at hle
    rw [hstr] at hten hzero
    have hsplit : bytes = encodeHeader ts.length maxTensors offset (UInt64.ofNat text.length) ++
        (entryTable maxTensors ts ++
          s.drop (fileFront maxTensors ts offset text.length).length) := by
      rw [hbytes, fileFront, List.append_assoc]
    have hrange : slice bytes offset.toNat text.length = slice (entryTable maxTensors ts ++
        s.drop (fileFront maxTensors ts offset text.length).length) (offset.toNat - 32)
          text.length := by
      have hdrop : offset.toNat = (encodeHeader ts.length maxTensors offset
          (UInt64.ofNat text.length)).length + (offset.toNat - 32) := by
        rw [length_encodeHeader]
        omega
      rw [hsplit, slice, hdrop, ← List.drop_drop, List.drop_left, ← hdrop, slice]
    rw [hrange] at hten hzero
    have height : offset.toNat % 8 = 0 := by
      rw [hs.offset_eq, ceilTo, Nat.mul_mod_left]
    refine hzero (zero_mem_table (by omega) (by rw [length_entryTable]; omega) ?_ _)
    rw [slice, List.length_take] at hten
    omega

/-- **A representable file reads back.** -/
lemma readable_of_representable (hiter : ∀ names, (iter names).Perm names.entries)
    (hwrite : writeFile json iter maxTensors ts metadataJson = .ok (w, bytes))
    (hne : json.toString (w.augmentedMetadata json iter metadataJson) ≠ "")
    (hparse : ∃ v, json.fromStr (json.toString (w.augmentedMetadata json iter metadataJson)) =
      some v ∧ v.get "name_table" = (w.augmentedMetadata json iter metadataJson).get "name_table")
    (hgrammar : ∀ s v members, json.fromStr s = some v →
      v.get "name_table" = some (.object members) → 10 ≤ (utf8 s).length ∧ 0 ∉ utf8 s)
    (hoff : Offsets maxTensors ts
      (utf8 (json.toString (w.augmentedMetadata json iter metadataJson))))
    (hrep : Representable maxTensors ts) : Readable json ts bytes := by
  obtain ⟨hw, hfinish⟩ := writeFile_ok hwrite
  have hle := le_tableEnd (reservedOf_lt maxTensors)
  have hregion := hrep.region
  have hpos : tableEnd maxTensors ≠ 0 := fun hzero => by
    rw [dataStart, hzero] at hregion
    change _ ≤ 0 at hregion
    omega
  have hfits : fileEnd maxTensors ts
      (utf8 (json.toString (w.augmentedMetadata json iter metadataJson))) < 2 ^ 64 :=
    lt_trans (hoff.data hrep.nonempty) (by decide)
  have htextLt : (utf8 (json.toString (w.augmentedMetadata json iter metadataJson))).length <
      2 ^ 64 := lt_trans hoff.text (by decide)
  have htableLt := hoff.table
  obtain ⟨-, offset, s, hs, hbytes⟩ := finish_streamed iter hw hrep.nonempty hpos rfl
    (utf8_ne_nil hne) hfits
  rw [← hfinish] at hbytes
  have hf := Streamed.headerFields hbytes
  obtain ⟨hcount, hreserved⟩ := header_of_fields hf
  have hstored : ∀ header : BqntFile, header.metadataOffset = offset →
      header.metadataSize = _ → ∀ t ∈ ts, ∀ stored, _ → stored = t.name :=
    fun header hoffset hsize t ht stored => stored_name hiter hw hparse hgrammar hs htextLt
      (by
        have hstart := le_dataEnd (dataStart maxTensors) ts
        have hceil := le_ceilTo (by decide : 0 < 8) (dataEnd (dataStart maxTensors) ts)
        rw [hs.offset_eq]
        omega) hbytes hoffset hsize ht
  set text := utf8 (json.toString (w.augmentedMetadata json iter metadataJson)) with htext
  have hsizeN : (UInt64.ofNat text.length).toNat = text.length :=
    UInt64.toNat_ofNat_of_lt' htextLt
  have hfront := length_fileFront maxTensors ts offset text.length
  have hstart := le_dataEnd (dataStart maxTensors) ts
  have hceil := le_ceilTo (by decide : 0 < 8) (dataEnd (dataStart maxTensors) ts)
  have hoffset := hs.offset_eq
  have hslen := hs.length
  rw [fileEnd, ← hoffset] at hslen
  have hlen : bytes.length = 32 + ts.length * 48 + (s.length - (32 + ts.length * 48)) := by
    rw [hbytes, List.length_append, List.length_drop, hfront]
  have hmod : ts.length % 2 ^ 32 ≤ ts.length := Nat.mod_le _ _
  rw [fileEnd, ← hoffset] at hfits
  -- the header
  obtain ⟨h, hheader, hfile⟩ := @readHeader_of bytes (by omega) hf.magic hf.version
    (by rw [hcount]; omega)
    (by rw [hf.metadataOffset, hf.metadataSize, hsizeN]; omega)
    (fun _ => by rw [hf.metadataOffset, hreserved]; omega)
  obtain ⟨hok, -⟩ := readHeader_ok hheader
  have hn : h.nTensors = ts.length % 2 ^ 32 := hok.nTensors.trans hcount
  have hmetaOffset : h.metadataOffset = offset := hok.metadataOffset.trans hf.metadataOffset
  -- the entries
  have hchecked : ∀ i < h.nTensors, EntryChecked h (tableEntry bytes i) := by
    intro i hi
    rw [hn] at hi
    obtain ⟨⟨a, t⟩, hp⟩ : ∃ p, (placed (dataStart maxTensors) ts)[i]? = some p :=
      ⟨_, List.getElem?_eq_getElem (by rw [length_placed]; omega)⟩
    have hmem := List.mem_of_getElem? hp
    have hcounted := mem_counted.mpr ⟨i, hi, hp⟩
    obtain ⟨haN, hlenN⟩ := hs.toNat_entryOf (by rw [fileEnd, ← hoffset]; exact hfits) hmem
    obtain ⟨hsa, hae, -⟩ := hs.data a t hmem
    rw [Streamed.tableEntry_eq hbytes hp]
    refine ⟨hrep.rank _ hcounted, ⟨t.format, codeToFormat_formatToCode t.format, ?_⟩, ?_, ?_,
      fun _ => .inr ?_⟩
    · rw [hlenN]
      exact hrep.size _ hcounted
    · rw [haN, hlenN, hfile]
      omega
    · rw [hok.tableEnd, hreserved, haN]
      omega
    · rw [haN, hlenN, hmetaOffset]
      omega
  obtain ⟨header, hopen⟩ := openFile_of hheader hchecked (by
    rw [hn, Streamed.hashes_eq hbytes]
    exact hrep.hashes)
  obtain ⟨h', hok'⟩ := openFile_ok hopen
  refine ⟨⟨bytes, header, MmapBqnt.readNameTable json bytes header⟩,
    by rw [MmapBqnt.openMmap, hopen], fun name data hdata => ?_⟩
  -- the entry of a name
  obtain ⟨⟨a, t⟩, hcounted, rfl, hcovered⟩ := hrep.kept name data hdata
  obtain ⟨i, hi, hp⟩ := mem_counted.mp hcounted
  have hmem := List.mem_of_getElem? hp
  have ht : t ∈ ts := by
    rw [← placed_map_snd (dataStart maxTensors) ts]
    exact List.mem_map.mpr ⟨_, hmem, rfl⟩
  have hn' : h'.nTensors = ts.length % 2 ^ 32 := hok'.header.nTensors.trans hcount
  have hget : header.get t.name = some (entryOf (a, t)) := by
    refine AList.mem_lookup_iff.mpr ((hok'.mem _).mpr ⟨i, by rw [hn']; exact hi, ?_⟩)
    rw [Streamed.tableEntry_eq hbytes hp]
    rfl
  obtain ⟨haN, hlenN⟩ := hs.toNat_entryOf (by rw [fileEnd, ← hoffset]; exact hfits) hmem
  obtain ⟨hsa, hae, hslice⟩ := hs.data a t hmem
  have hdataOf : MmapBqnt.entryData
      ⟨bytes, header, MmapBqnt.readNameTable json bytes header⟩ (entryOf (a, t)) = some data := by
    rw [MmapBqnt.entryData, haN, hlenN, if_pos (by change _ ≤ bytes.length; omega), hbytes,
      slice_fileFront (by omega) hslice, hcovered]
  have hname := hstored header (hok'.metadataOffset.trans
    (hok'.header.metadataOffset.trans hf.metadataOffset)) (hok'.metadataSize.trans
    (hok'.header.metadataSize.trans hf.metadataSize)) t ht
  simp only [MmapBqnt.tensorData, hget]
  split
  · rename_i stored hst
    rw [if_neg (not_not.mpr (hname stored hst))]
    exact hdataOf
  · exact hdataOf

end Directions

/-- A file in which every tensor has its entry in the reserved region is representable. -/
lemma representable_of_writable {maxTensors : ℕ} {ts : List Tensor}
    (hts : Writable maxTensors ts) : Representable maxTensors ts := by
  have hcount := hts.count
  have hmax := hts.max
  have hpos : 0 < ts.length := List.length_pos_iff.mpr hts.nonempty
  have hreserved : reservedOf maxTensors = maxTensors := by
    rw [reservedOf, Nat.mod_eq_of_lt hmax, if_neg (by omega)]
  have hcounted : counted maxTensors ts = placed (dataStart maxTensors) ts :=
    counted_eq (by omega)
  have hmem : ∀ p ∈ placed (dataStart maxTensors) ts, p.2 ∈ ts := fun p hp => by
    have hp2 := List.mem_map_of_mem (f := Prod.snd) hp
    rwa [placed_map_snd] at hp2
  refine ⟨hts.nonempty, by rw [hreserved]; exact le_rfl, fun p hp => ?_, fun p hp => ?_, ?_,
    fun name data hdata => ?_⟩
  · exact hts.rank _ (hmem p (hcounted ▸ hp))
  · exact hts.size _ (hmem p (hcounted ▸ hp))
  · have hhashes := hts.hashes
    rw [← placed_map_snd (dataStart maxTensors) ts, List.map_map] at hhashes
    rw [hcounted]
    exact hhashes
  · obtain ⟨t, ht, hname, rfl⟩ := exists_of_lastWritten hdata
    rw [← placed_map_snd (dataStart maxTensors) ts] at ht
    obtain ⟨⟨a, t'⟩, hp, rfl⟩ := List.mem_map.mp ht
    refine ⟨(a, t'), by rw [hcounted]; exact hp, hname, ?_⟩
    -- the table ends before the data
    have htable := length_entryTable maxTensors ts
    have hle := le_tableEnd hmax
    have hstart : dataStart maxTensors ≤ a := (placed_spec hp).1
    rw [dataStart] at hstart
    rw [covered, slice, List.drop_of_length_le (by omega), List.take_nil, List.nil_append,
      Nat.sub_eq_zero_of_le (by omega), List.drop_zero]

/-- The metadata that `finish` writes, if it was given an object. -/
lemma augmentedMetadata_eq {json : SerdeJson N}
    (iter : HashMap UInt64 String → List (Sigma fun _ : UInt64 => String)) {maxTensors : ℕ}
    {ts : List Tensor} {metadataJson : String} {members : List (String × Json N)} {w : BqntWriter}
    (hw : (BqntWriter.create maxTensors).writeTensors ts = .ok w)
    (hobject : json.fromStr metadataJson = some (.object members)) :
    w.augmentedMetadata json iter metadataJson = fileMetadata iter ts members := by
  have hnames : w.names = addNames ∅ ts := (BqntWriter.entries_of_writeTensors hw).2.2.2
  rw [BqntWriter.augmentedMetadata, hobject, hnames]
  rfl

/-- **The reader opens a file of writable tensors**, and holds them. -/
lemma opened_of_writable {json : SerdeJson N}
    {iter : HashMap UInt64 String → List (Sigma fun _ : UInt64 => String)} {maxTensors : ℕ}
    {ts : List Tensor} {metadataJson : String} {members : List (String × Json N)} {w : BqntWriter}
    (hiter : ∀ names, (iter names).Perm names.entries)
    (hw : (BqntWriter.create maxTensors).writeTensors ts = .ok w) (hts : Writable maxTensors ts)
    (hobject : json.fromStr metadataJson = some (.object members))
    (hparse : json.fromStr (json.toString (fileMetadata iter ts members)) =
      some (fileMetadata iter ts members))
    (hne : json.toString (fileMetadata iter ts members) ≠ "")
    (hfits : fileEnd maxTensors ts (utf8 (json.toString (fileMetadata iter ts members))) <
      2 ^ 64) :
    ∃ f, MmapBqnt.openMmap json (w.finish json iter metadataJson) = .ok f ∧
      Opened (placed (dataStart maxTensors) ts) f ∧
      f.metadata = .ok (json.toString (fileMetadata iter ts members)) := by
  obtain ⟨w', offset, bytes, hwrite, hwritten⟩ := writeFile_spec hts hobject rfl
    (utf8_ne_nil hne) hfits
  obtain ⟨hw', rfl⟩ := writeFile_ok hwrite
  obtain rfl := Except.ok.inj (hw.symm.trans hw')
  obtain ⟨f, -, hopen, hopened, -, hmeta⟩ := openMmap_spec hiter hts hwritten hfits
    (utf8_ne_nil hne) hparse
  exact ⟨f, hopen, hopened, hmeta⟩

/-- The texts of the two tensors are JSON objects. -/
lemma tensorsJson_grammar (s : String) (v : Json Empty) (members : List (String × Json Empty))
    (hv : tensorsJson.fromStr s = some v) (hget : v.get "name_table" = some (.object members)) :
    10 ≤ (utf8 s).length ∧ 0 ∉ utf8 s := by
  simp only [tensorsJson] at hv
  split_ifs at hv with hnil htwo hone
  · rw [← Option.some.inj hv] at hget
    cases hget
  · rw [htwo]
    decide +kernel
  · rw [hone]
    decide +kernel

/-- **The writer's files.**  Take any number of reserved entries, any metadata and any calls that
all return.  Then the reader opens the file and finds under each name the bytes last written for
it, if and only if the tensors are representable with that number of entries. -/
theorem readable_iff (json : SerdeJson N)
    (iter : HashMap UInt64 String → List (Sigma fun _ : UInt64 => String))
    (hiter : ∀ names, (iter names).Perm names.entries) (maxTensors : ℕ) (ts : List Tensor)
    (metadataJson : String) (w : BqntWriter) (bytes : List UInt8)
    (hwrite : writeFile json iter maxTensors ts metadataJson = .ok (w, bytes))
    (hempty : json.fromStr "" = none)
    (hparse : ∃ v, json.fromStr (json.toString (w.augmentedMetadata json iter metadataJson)) =
      some v ∧ v.get "name_table" = (w.augmentedMetadata json iter metadataJson).get "name_table")
    (hgrammar : ∀ s v members, json.fromStr s = some v →
      v.get "name_table" = some (.object members) → 10 ≤ (utf8 s).length ∧ 0 ∉ utf8 s)
    (hoff : Offsets maxTensors ts
      (utf8 (json.toString (w.augmentedMetadata json iter metadataJson)))) :
    Readable json ts bytes ↔ Representable maxTensors ts := by
  have hne : json.toString (w.augmentedMetadata json iter metadataJson) ≠ "" := by
    obtain ⟨v, hv, -⟩ := hparse
    intro hnil
    rw [hnil, hempty] at hv
    cases hv
  exact ⟨representable_of_readable hwrite hne hoff,
    readable_of_representable hiter hwrite hne hparse hgrammar hoff⟩

/-- The file of two tensors reads back. -/
theorem readable_two_tensors : ∃ w bytes,
    writeFile tensorsJson (·.entries) 2 twoTensors "\x7b\x7d" = .ok (w, bytes) ∧
      Readable tensorsJson twoTensors bytes := by
  have hobject : tensorsJson.fromStr "\x7b\x7d" = some (.object []) := rfl
  obtain ⟨w, bytes, hwrite⟩ : ∃ w bytes,
      writeFile tensorsJson (·.entries) 2 twoTensors "\x7b\x7d" = .ok (w, bytes) :=
    ⟨_, _, rfl⟩
  have hmeta := augmentedMetadata_eq (·.entries) (writeFile_ok hwrite).1 hobject
  rw [fileMetadata_twoTensors] at hmeta
  refine ⟨w, bytes, hwrite, (readable_iff tensorsJson (·.entries) (fun _ => .refl _) 2 twoTensors
    "\x7b\x7d" w bytes hwrite rfl ?_ tensorsJson_grammar ?_).mpr
    (representable_of_writable twoTensors_writable)⟩
  · rw [hmeta]
    exact ⟨_, rfl, rfl⟩
  · rw [hmeta]
    exact ⟨fun _ => by decide +kernel, by decide, by decide +kernel⟩

/-- A name that is written twice is not reported, and the file is refused. -/
theorem not_readable : ¬ ∀ (maxTensors : ℕ) (ts : List Tensor) (metadataJson : String)
    (w : BqntWriter) (bytes : List UInt8),
    writeFile tensorsJson (·.entries) maxTensors ts metadataJson = .ok (w, bytes) →
      Readable tensorsJson ts bytes := by
  intro h
  have hobject : tensorsJson.fromStr "\x7b\x7d" = some (.object []) := rfl
  obtain ⟨w, bytes, hwrite⟩ : ∃ w bytes,
      writeFile tensorsJson (·.entries) 2 [oneTensor, oneTensor] "\x7b\x7d" = .ok (w, bytes) :=
    ⟨_, _, rfl⟩
  have hmeta := augmentedMetadata_eq (·.entries) (writeFile_ok hwrite).1 hobject
  -- the one name they have
  have hnames : addNames ∅ [oneTensor, oneTensor] = addNames ∅ [oneTensor] :=
    AList.insert_insert _
  have hkey : hexKey (fnv1a64 "x") = "0xaf63f54c86021707" := by decide +kernel
  have htable : fileMetadata (N := Empty) (·.entries) [oneTensor, oneTensor] [] =
      tableOf [xMember] := by
    rw [fileMetadata, hnames, tableOf, xMember, ← hkey]
    rfl
  rw [htable] at hmeta
  have hrep := representable_of_readable hwrite (by rw [hmeta]; decide) (by
    rw [hmeta]
    exact ⟨fun _ => by decide +kernel, by decide, by decide +kernel⟩) (h _ _ _ _ _ hwrite)
  have hnodup := hrep.hashes
  rw [counted] at hnodup
  exact List.not_nodup_pair _ hnodup

end Braidinfer.Bqnt
