/-
The round trip of the BQNT format: what `BqntWriter` writes, `MmapBqnt::open` reads back.

* `decodeEntry_encodeEntry`, `headerFields_encodeHeader`, `readHeader_spec`, `readEntries_spec`: the
  reader accepts the header and the table of the writer;
* `nameTable_spec`: the name table comes back as the names that were written;
* `bqnt_roundTrip`: **every file of the writer is accepted, and gives back each tensor, the
  metadata with the name table, and nothing else**.
-/
import Braidinfer.Bqnt.Checks

namespace Braidinfer.Bqnt

open Braidinfer.Lib

/-! ### Fields -/

lemma u32_of_bytes (x : UInt32) : UInt32.ofNat (ofLeBytes (u32Bytes x)) = x := by
  rw [u32Bytes, ofLeBytes_leBytes_of_lt (lt_of_lt_of_eq x.toNat_lt (by decide)),
    UInt32.ofNat_toNat]

lemma u64_of_bytes (x : UInt64) : UInt64.ofNat (ofLeBytes (u64Bytes x)) = x := by
  rw [u64Bytes, ofLeBytes_leBytes_of_lt (lt_of_lt_of_eq x.toNat_lt (by decide)),
    UInt64.ofNat_toNat]

/-- An entry of the table is read back as it was written. -/
lemma decodeEntry_encodeEntry (e : TensorEntry) : decodeEntry (encodeEntry e) = e := by
  have h0 : slice (encodeEntry e) 0 8 = u64Bytes e.nameHash := rfl
  have h12 : slice (encodeEntry e) 12 4 = u32Bytes e.outFeatures := rfl
  have h16 : slice (encodeEntry e) 16 4 = u32Bytes e.inFeatures := rfl
  have h20 : slice (encodeEntry e) 20 4 = u32Bytes e.originalNdim := rfl
  have h24 : slice (encodeEntry e) 24 8 = u64Bytes e.dataOffset := rfl
  have h32 : slice (encodeEntry e) 32 8 = u64Bytes e.dataBytes := rfl
  have h8 : (encodeEntry e).getD 8 0 = e.format := rfl
  simp only [decodeEntry, u64At, u32At, h0, h8, h12, h16, h20, h24, h32, u64_of_bytes,
    u32_of_bytes]

lemma readExact_append {a : List UInt8} {n : ℕ} (h : a.length = n) (rest : List UInt8) :
    readExact n (a ++ rest) = .ok (a, rest) := by
  rw [readExact, if_neg (by rw [List.length_append]; omega), ← h, List.take_left, List.drop_left]

/-! ### The header -/

/-- The fields of a header, as the reader finds them. -/
structure HeaderFields (bytes : List UInt8) (n maxTensors : ℕ) (offset size : UInt64) : Prop where
  magic : u32At bytes 0 = magic
  version : u32At bytes 4 = version
  nTensors : u32At bytes 8 = UInt32.ofNat n
  reserved : u32At bytes 12 = UInt32.ofNat maxTensors
  metadataOffset : u64At bytes 16 = offset
  metadataSize : u64At bytes 24 = size

/-- A header is read back as it was written. -/
lemma headerFields_encodeHeader (n maxTensors : ℕ) (offset size : UInt64) (rest : List UInt8) :
    HeaderFields (encodeHeader n maxTensors offset size ++ rest) n maxTensors offset size := by
  set header := encodeHeader n maxTensors offset size with hheader
  have hslice : ∀ i k, i + k ≤ 32 → slice (header ++ rest) i k = slice header i k :=
    fun i k hik => slice_append_left hik
  have h0 : slice header 0 4 = u32Bytes Bqnt.magic := rfl
  have h4 : slice header 4 4 = u32Bytes Bqnt.version := rfl
  have h8 : slice header 8 4 = u32Bytes (UInt32.ofNat n) := rfl
  have h12 : slice header 12 4 = u32Bytes (UInt32.ofNat maxTensors) := rfl
  have h16 : slice header 16 8 = u64Bytes offset := rfl
  have h24 : slice header 24 8 = u64Bytes size := rfl
  refine ⟨?_, ?_, ?_, ?_, ?_, ?_⟩
  · rw [u32At, hslice _ _ (by decide), h0, u32_of_bytes]
  · rw [u32At, hslice _ _ (by decide), h4, u32_of_bytes]
  · rw [u32At, hslice _ _ (by decide), h8, u32_of_bytes]
  · rw [u32At, hslice _ _ (by decide), h12, u32_of_bytes]
  · rw [u64At, hslice _ _ (by decide), h16, u64_of_bytes]
  · rw [u64At, hslice _ _ (by decide), h24, u64_of_bytes]

/-- The header of a file of the writer. -/
lemma headerFields_finish {N : Type} (json : SerdeJson N)
    (iter : HashMap UInt64 String → List (Sigma fun _ : UInt64 => String)) (w : BqntWriter)
    (metadataJson : String) :
    HeaderFields (w.finish json iter metadataJson) w.entries.length w.maxTensors
      (alignUp w.currentOffset 8) (UInt64.ofNat
        (utf8 (json.toString (w.augmentedMetadata json iter metadataJson))).length) := by
  obtain ⟨rest, hrest⟩ := BqntWriter.finish_front json iter w metadataJson
  rw [hrest, BqntWriter.front, List.append_assoc]
  exact headerFields_encodeHeader _ _ _ _ _

/-- **The header is accepted**: the table lies in the file, the metadata lies in the file and
behind the reserved region. -/
lemma readHeader_spec {bytes rest : List UInt8} {n maxTensors : ℕ} {offset size : UInt64}
    (hbytes : bytes = encodeHeader n maxTensors offset size ++ rest)
    (hlen : bytes.length < 2 ^ 64) (hn : n < 2 ^ 32) (hzero : 0 < maxTensors)
    (hmax : maxTensors < 2 ^ 32) (htable : 32 + n * 48 ≤ bytes.length)
    (hmeta : offset.toNat + size.toNat ≤ bytes.length)
    (hbehind : (tableEnd maxTensors).toNat ≤ offset.toNat) :
    ∃ h, readHeader bytes = .ok (h, rest) ∧ h.fileLen.toNat = bytes.length ∧ h.nTensors = n ∧
      h.tableEnd = tableEnd maxTensors ∧ h.metadataOffset = offset ∧ h.metadataSize = size ∧
      h.metadataEnd.toNat = offset.toNat + size.toNat := by
  have hf : HeaderFields bytes n maxTensors offset size := by
    rw [hbytes]
    exact headerFields_encodeHeader n maxTensors offset size rest
  have hcount : (u32At bytes 8).toNat = n := by rw [hf.nTensors, UInt32.toNat_ofNat_of_lt' hn]
  have hreserved : reservedEntries bytes = maxTensors := by
    rw [reservedEntries, hf.reserved, UInt32.toNat_ofNat_of_lt' hmax,
      if_neg (Nat.ne_of_gt hzero)]
  obtain ⟨h, hread, hfile⟩ := readHeader_of hlen hf.magic hf.version (by rw [hcount]; exact htable)
    (by rw [hf.metadataOffset, hf.metadataSize]; exact hmeta)
    (fun _ => by rw [hf.metadataOffset, hreserved]; exact hbehind)
  obtain ⟨hok, -⟩ := readHeader_ok hread
  have hrest : bytes.drop 32 = rest := by
    rw [hbytes]
    exact List.drop_left' (length_encodeHeader n maxTensors offset size)
  rw [hrest] at hread
  have hoffset : h.metadataOffset = offset := hok.metadataOffset.trans hf.metadataOffset
  have hsize : h.metadataSize = size := hok.metadataSize.trans hf.metadataSize
  exact ⟨h, hread, hfile, hok.nTensors.trans hcount, by rw [hok.tableEnd, hreserved], hoffset,
    hsize, by rw [hok.metadataEnd, hoffset, hsize]⟩

/-! ### The entry table -/

/-- **An entry is accepted**: the rank is plausible, the size is the packed one, and the data
lies behind the reserved region and before the metadata. -/
lemma entryOk_of_placed {h : Header} {a : ℕ} {t : Tensor} (hrank : t.ndim ≤ 16)
    (hsize : t.data.length = packedSize t.format t.outFeatures.toNat t.inFeatures.toNat)
    (hbehind : h.tableEnd.toNat ≤ a) (hbefore : a + t.data.length ≤ h.metadataOffset.toNat)
    (hfile : a + t.data.length ≤ h.fileLen.toNat) : EntryOk h (entryOf (a, t)) := by
  have hlt := h.fileLen.toNat_lt
  have ha : (UInt64.ofNat a).toNat = a := UInt64.toNat_ofNat_of_lt' (by
    change a < 2 ^ 64; omega)
  have hbytes : (UInt64.ofNat t.data.length).toNat = t.data.length :=
    UInt64.toNat_ofNat_of_lt' (by change t.data.length < 2 ^ 64; omega)
  refine EntryChecked.entryOk ⟨hrank, ⟨t.format, codeToFormat_formatToCode t.format, ?_⟩, ?_, ?_,
    fun _ => .inr ?_⟩
  · exact hbytes.trans hsize
  · change (UInt64.ofNat a).toNat + (UInt64.ofNat t.data.length).toNat ≤ _
    rw [ha, hbytes]
    exact hfile
  · change _ ≤ (UInt64.ofNat a).toNat
    rw [ha]
    exact hbehind
  · change (UInt64.ofNat a).toNat + (UInt64.ofNat t.data.length).toNat ≤ _
    rw [ha, hbytes]
    exact hbefore

/-- **The table is accepted**: entries that are fine, with new, distinct hashes. -/
lemma readEntries_spec {h : Header} {es : List TensorEntry} (rest : List UInt8)
    {entries : HashMap UInt64 TensorEntry} (hok : ∀ e ∈ es, EntryOk h e)
    (hnodup : (es.map (·.nameHash)).Nodup) (hnew : ∀ e ∈ es, e.nameHash ∉ entries) :
    ∃ out, readEntries h es.length (encodeTable es ++ rest) entries = .ok out ∧
      out.entries = (es.map fun e => ⟨e.nameHash, e⟩).reverse ++ entries.entries := by
  induction es generalizing entries with
  | nil => exact ⟨entries, rfl, rfl⟩
  | cons e es ih =>
      obtain ⟨hfresh, hrest⟩ := List.nodup_cons.mp hnodup
      have he := hnew e List.mem_cons_self
      obtain ⟨out, hout, hentries⟩ := @ih (entries.insert e.nameHash e)
        (fun e' he' => hok e' (List.mem_cons_of_mem _ he')) hrest (fun e' he' hmem => by
          rcases (AList.mem_insert _).mp hmem with heq | hmem
          · exact hfresh (List.mem_map.mpr ⟨e', he', heq⟩)
          · exact hnew e' (List.mem_cons_of_mem _ he') hmem)
      refine ⟨out, ?_, ?_⟩
      · have hread : readExact 48 (encodeTable (e :: es) ++ rest) =
            .ok (encodeEntry e, encodeTable es ++ rest) := by
          rw [encodeTable, List.flatMap_cons, List.append_assoc]
          exact readExact_append (length_encodeEntry e) _
        simp only [List.length_cons, readEntries, hread, decodeEntry_encodeEntry,
          hok e List.mem_cons_self entries he]
        exact hout
      · rw [hentries, AList.entries_insert_of_notMem he]
        simp

/-! ### The name table -/

variable {N : Type}

/-- A name table has only names in it. -/
lemma mem_nameTable {names : List (Sigma fun _ : UInt64 => String)} {k : String} {v : Json N}
    (h : (k, v) ∈ BqntWriter.nameTable names) :
    ∃ e ∈ names, k = hexKey e.1 ∧ v = .string e.2 := by
  have hfold : ∀ (names : List (Sigma fun _ : UInt64 => String)) (table : List (String × Json N)),
      (k, v) ∈ names.foldl (fun table e => Json.insert (hexKey e.1) (.string e.2) table) table →
      (k, v) ∈ table ∨ ∃ e ∈ names, k = hexKey e.1 ∧ v = .string e.2 := by
    intro names
    induction names with
    | nil => exact fun table h => .inl h
    | cons e names ih =>
        intro table h
        rcases ih _ h with h | ⟨e', he', hkv⟩
        · rcases Json.mem_insert h with heq | h
          · exact .inr ⟨e, List.mem_cons_self, Prod.mk.inj heq⟩
          · exact .inl h
        · exact .inr ⟨e', List.mem_cons_of_mem _ he', hkv⟩
  exact (hfold names [] h).resolve_left (by simp)

/-- Every name is in the name table, under its key. -/
lemma lookup_nameTable {names : List (Sigma fun _ : UInt64 => String)} (hnodup : names.NodupKeys)
    {e : Sigma fun _ : UInt64 => String} (he : e ∈ names) :
    (BqntWriter.nameTable (N := N) names).lookup (hexKey e.1) = some (.string e.2) := by
  have hkeep : ∀ (names : List (Sigma fun _ : UInt64 => String)) (table : List (String × Json N)),
      e.1 ∉ names.keys →
      (names.foldl (fun table e => Json.insert (hexKey e.1) (.string e.2) table) table).lookup
        (hexKey e.1) = table.lookup (hexKey e.1) := by
    intro names
    induction names with
    | nil => exact fun table _ => rfl
    | cons e' names ih =>
        intro table hnot
        rw [List.keys_cons, List.mem_cons, not_or] at hnot
        rw [List.foldl_cons, ih _ hnot.2]
        exact Json.lookup_insert_of_ne fun h => hnot.1 (hexKey_injective h)
  have hfold : ∀ (names : List (Sigma fun _ : UInt64 => String)) (table : List (String × Json N)),
      names.NodupKeys → e ∈ names →
      (names.foldl (fun table e => Json.insert (hexKey e.1) (.string e.2) table) table).lookup
        (hexKey e.1) = some (.string e.2) := by
    intro names
    induction names with
    | nil => exact fun table _ he => by cases he
    | cons e' names ih =>
        intro table hnodup he
        rw [List.foldl_cons]
        rcases List.mem_cons.mp he with rfl | he
        · rw [hkeep names _ (List.notMem_keys_of_nodupKeys_cons hnodup)]
          exact Json.lookup_insert_self
        · exact ih _ (List.nodupKeys_of_nodupKeys_cons hnodup) he
  exact hfold names [] hnodup he

/-- **The name table comes back** as the names that were written. -/
lemma nameTable_spec {names : List (Sigma fun _ : UInt64 => String)} (hnodup : names.NodupKeys) :
    ((BqntWriter.nameTable (N := N) names).foldl MmapBqnt.insertName ∅).entries.Perm names := by
  -- only names get in
  have hfrom : ∀ (table : List (String × Json N)) (m : HashMap UInt64 String),
      (∀ p ∈ table, ∃ e ∈ names, p.1 = hexKey e.1 ∧ p.2 = .string e.2) →
      (∀ e ∈ m.entries, e ∈ names) →
      (∀ e ∈ (table.foldl MmapBqnt.insertName m).entries, e ∈ names) ∧
        ∀ k : UInt64, (k ∈ m ∨ ∃ p ∈ table, p.1 = hexKey k) →
          k ∈ table.foldl MmapBqnt.insertName m := by
    intro table
    induction table with
    | nil =>
        intro m _ hm
        exact ⟨hm, fun k hk => hk.resolve_right (by simp)⟩
    | cons p table ih =>
        intro m hp hm
        obtain ⟨e, he, hkey, hvalue⟩ := hp p List.mem_cons_self
        have hinsert : MmapBqnt.insertName m p = m.insert e.1 e.2 := by
          rw [MmapBqnt.insertName, hkey, hvalue, parseHexKey_hexKey]
          rfl
        rw [List.foldl_cons, hinsert]
        obtain ⟨hin, hkeys⟩ := ih (m.insert e.1 e.2)
          (fun q hq => hp q (List.mem_cons_of_mem _ hq)) (fun e' he' => by
            rw [AList.entries_insert] at he'
            rcases List.mem_cons.mp he' with rfl | he'
            · exact he
            · exact hm e' ((List.kerase_sublist _ _).subset he'))
        refine ⟨hin, fun k hk => hkeys k ?_⟩
        rcases hk with hk | ⟨q, hq, hqk⟩
        · exact .inl ((AList.mem_insert _).mpr (.inr hk))
        · rcases List.mem_cons.mp hq with rfl | hq
          · rw [hkey] at hqk
            exact .inl ((AList.mem_insert _).mpr (.inl (hexKey_injective hqk).symm))
          · exact .inr ⟨q, hq, hqk⟩
  obtain ⟨hin, hkeys⟩ := hfrom (BqntWriter.nameTable names) ∅
    (fun p hp => mem_nameTable (k := p.1) (v := p.2) hp) (fun e he => by cases he)
  refine (List.perm_ext_iff_of_nodup (AList.nodupKeys _).nodup hnodup.nodup).mpr fun e =>
    ⟨hin e, fun he => ?_⟩
  have hmem := hkeys e.1 (.inr ⟨_, Json.mem_of_lookup (lookup_nameTable hnodup he), rfl⟩)
  obtain ⟨v, hv⟩ := Option.isSome_iff_exists.mp (AList.lookup_isSome.mpr hmem)
  have hentry := AList.mem_lookup_iff.mp hv
  have heq := hnodup.eq_of_fst_eq (hin _ hentry) he rfl
  rwa [heq] at hentry

/-- Text that was written is read back. -/
lemma fromUtf8_utf8 (s : String) : fromUtf8 (utf8 s) = some s := by
  have hbytes : (⟨(utf8 s).toArray⟩ : ByteArray) = s.toByteArray := by
    rw [utf8, Array.toArray_toList]
  rw [fromUtf8, hbytes, String.fromUTF8?, dif_pos s.isValidUTF8]
  rfl

lemma utf8_ne_nil {s : String} (h : s ≠ "") : utf8 s ≠ [] := fun hnil => by
  have hempty : utf8 s = utf8 "" := hnil
  have hsome := fromUtf8_utf8 s
  rw [hempty, fromUtf8_utf8] at hsome
  exact h (Option.some.inj hsome).symm

/-! ### Files of the writer -/

/-- The tensors a file of `maxTensors` reserved entries is made of. -/
structure Writable (maxTensors : ℕ) (ts : List Tensor) : Prop where
  nonempty : ts ≠ []
  hashes : (ts.map fun t => fnv1a64 t.name).Nodup
  rank : ∀ t ∈ ts, t.ndim ≤ 16
  size : ∀ t ∈ ts,
    t.data.length = packedSize t.format t.outFeatures.toNat t.inFeatures.toNat
  count : ts.length ≤ maxTensors
  max : maxTensors < 2 ^ 32

/-- Where the data of a file starts. -/
def dataStart (maxTensors : ℕ) : ℕ := (tableEnd maxTensors).toNat

/-- The size of a file with metadata `text`. -/
def fileEnd (maxTensors : ℕ) (ts : List Tensor) (text : List UInt8) : ℕ :=
  ceilTo 8 (dataEnd (dataStart maxTensors) ts) + text.length

/-- The metadata of a file: the writer's object with the name table added. -/
def fileMetadata (iter : HashMap UInt64 String → List (Sigma fun _ : UInt64 => String))
    (ts : List Tensor) (members : List (String × Json N)) : Json N :=
  .object (Json.insert "name_table" (.object (BqntWriter.nameTable (iter (addNames ∅ ts)))) members)

/-- The entry table. -/
def entryTable (maxTensors : ℕ) (ts : List Tensor) : List UInt8 :=
  encodeTable ((placed (dataStart maxTensors) ts).map entryOf)

/-- Everything that was streamed: the region, the tensors and the metadata. -/
structure Streamed (maxTensors : ℕ) (ts : List Tensor) (text : List UInt8) (offset : UInt64)
    (s : List UInt8) : Prop where
  length : s.length = fileEnd maxTensors ts text
  offset_eq : offset.toNat = ceilTo 8 (dataEnd (dataStart maxTensors) ts)
  data : ∀ a t, (a, t) ∈ placed (dataStart maxTensors) ts →
    dataStart maxTensors ≤ a ∧ a + t.data.length ≤ dataEnd (dataStart maxTensors) ts ∧
      slice s a t.data.length = t.data
  metadata : slice s offset.toNat text.length = text

/-- The header and the table of a file. -/
def fileFront (maxTensors : ℕ) (ts : List Tensor) (offset : UInt64) (size : ℕ) : List UInt8 :=
  encodeHeader ts.length maxTensors offset (UInt64.ofNat size) ++ entryTable maxTensors ts

lemma length_placed (off : ℕ) (ts : List Tensor) : (placed off ts).length = ts.length := by
  rw [← congrArg List.length (placed_map_snd off ts), List.length_map]

lemma length_entryTable (maxTensors : ℕ) (ts : List Tensor) :
    (entryTable maxTensors ts).length = ts.length * 48 := by
  rw [entryTable, length_encodeTable, List.length_map, length_placed]

lemma length_fileFront (maxTensors : ℕ) (ts : List Tensor) (offset : UInt64) (size : ℕ) :
    (fileFront maxTensors ts offset size).length = 32 + ts.length * 48 := by
  rw [fileFront, List.length_append, length_encodeHeader, length_entryTable]

/-- **A file whose data does not start at zero**: the header and the table, written over the
start of everything that was streamed. -/
lemma finish_streamed {json : SerdeJson N}
    (iter : HashMap UInt64 String → List (Sigma fun _ : UInt64 => String)) {maxTensors : ℕ}
    {ts : List Tensor} {metadataJson : String} {text : List UInt8} {w : BqntWriter}
    (hwrite : (BqntWriter.create maxTensors).writeTensors ts = .ok w) (hts : ts ≠ [])
    (hpos : tableEnd maxTensors ≠ 0)
    (htext : utf8 (json.toString (w.augmentedMetadata json iter metadataJson)) = text)
    (hne : text ≠ []) (hfits : fileEnd maxTensors ts text < 2 ^ 64) :
    w.entries = (placed (dataStart maxTensors) ts).map entryOf ∧
      ∃ offset s, Streamed maxTensors ts text offset s ∧
        w.finish json iter metadataJson = fileFront maxTensors ts offset text.length ++
          s.drop (fileFront maxTensors ts offset text.length).length := by
  have hceil := le_ceilTo (by decide : 0 < 8) (dataEnd (dataStart maxTensors) ts)
  rw [fileEnd] at hfits
  rw [BqntWriter.writeTensors_create hpos hts] at hwrite
  have hwrote := BqntWriter.writeTensors_ok (BqntWriter.reserved_ready hpos) hwrite (by
    rw [BqntWriter.reserved_cursor, ← dataStart]
    omega)
  have hcursor : w.writer.cursor = dataEnd (dataStart maxTensors) ts := by
    rw [hwrote.cursor, BqntWriter.reserved_cursor, dataStart]
  have hentries : w.entries = (placed (dataStart maxTensors) ts).map entryOf := by
    rw [hwrote.entries, BqntWriter.reserved_entries, BqntWriter.reserved_cursor, dataStart,
      List.nil_append]
  have himage : w.writer.image = List.replicate (dataStart maxTensors) 0 ++
      body (dataStart maxTensors) ts := by
    rw [hwrote.image, BqntWriter.reserved_image, BqntWriter.reserved_cursor, dataStart]
  obtain ⟨offset, hoffset, hbytes⟩ := BqntWriter.finish_spec json iter metadataJson hwrote.ready
    htext hne (by rw [hcursor]; omega)
  rw [hcursor] at hoffset
  have hfront : w.front offset (UInt64.ofNat text.length) =
      fileFront maxTensors ts offset text.length := by
    have hmax : w.maxTensors = maxTensors := hwrote.maxTensors
    rw [BqntWriter.front, hmax, hentries, List.length_map, length_placed]
    rfl
  have himageLen : w.writer.image.length = dataEnd (dataStart maxTensors) ts := by
    rw [ByteFile.length_image hwrote.ready.atEnd, hcursor]
  have hpadLen : (w.writer.image ++ List.replicate
      (ceilTo 8 w.writer.cursor - w.writer.cursor) 0).length = offset.toNat := by
    rw [List.length_append, himageLen, List.length_replicate, hcursor, hoffset]
    omega
  refine ⟨hentries, offset, w.streamed text, ⟨?_, hoffset, fun a t hat => ?_, ?_⟩, ?_⟩
  · rw [BqntWriter.streamed, List.length_append, hpadLen, hoffset, fileEnd]
  · obtain ⟨hle, hend, hslice⟩ := placed_spec hat
    refine ⟨hle, hend, ?_⟩
    rw [BqntWriter.streamed, himage, List.append_assoc _ _ text]
    exact hslice _ _ List.length_replicate
  · rw [BqntWriter.streamed, ← hpadLen]
    have hmid := slice_middle (w.writer.image ++ List.replicate
      (ceilTo 8 w.writer.cursor - w.writer.cursor) 0) text []
    rwa [List.append_nil] at hmid
  · rw [hbytes, hfront]

/-- What a file of the writer looks like. -/
structure Written (maxTensors : ℕ) (ts : List Tensor) (text : List UInt8) (w : BqntWriter)
    (offset : UInt64) (bytes : List UInt8) : Prop where
  entries : w.entries = (placed (dataStart maxTensors) ts).map entryOf
  header : ∃ rest, bytes = encodeHeader ts.length maxTensors offset (UInt64.ofNat text.length) ++
    (encodeTable w.entries ++ rest)
  length : bytes.length = fileEnd maxTensors ts text
  offset_eq : offset.toNat = ceilTo 8 (dataEnd (dataStart maxTensors) ts)
  data : ∀ a t, (a, t) ∈ placed (dataStart maxTensors) ts →
    dataStart maxTensors ≤ a ∧ a + t.data.length ≤ dataEnd (dataStart maxTensors) ts ∧
      slice bytes a t.data.length = t.data
  metadata : slice bytes offset.toNat text.length = text

section Written

variable {json : SerdeJson N} {maxTensors : ℕ} {ts : List Tensor}
  {iter : HashMap UInt64 String → List (Sigma fun _ : UInt64 => String)}
  {members : List (String × Json N)} {metadataJson : String} {text : List UInt8}

/-- **A finished file of writable tensors** looks like that. -/
lemma finish_written {w : BqntWriter} (hts : Writable maxTensors ts)
    (hw : (BqntWriter.create maxTensors).writeTensors ts = .ok w)
    (htext : utf8 (json.toString (w.augmentedMetadata json iter metadataJson)) = text)
    (hne : text ≠ []) (hfits : fileEnd maxTensors ts text < 2 ^ 64) :
    ∃ offset, Written maxTensors ts text w offset (w.finish json iter metadataJson) := by
  obtain ⟨hentries, offset, s, hs, hbytes⟩ :=
    finish_streamed iter hw hts.nonempty (tableEnd_ne_zero hts.max) htext hne hfits
  -- the table fits into the reserved region
  have hfrontLen := length_fileFront maxTensors ts offset text.length
  have hstart := le_dataEnd (dataStart maxTensors) ts
  have hceil := le_ceilTo (by decide : 0 < 8) (dataEnd (dataStart maxTensors) ts)
  have hfrontLe : (fileFront maxTensors ts offset text.length).length ≤ dataStart maxTensors := by
    have hle := le_tableEnd hts.max
    have hcnt := hts.count
    rw [hfrontLen, dataStart]
    omega
  have hlen := hs.length
  rw [fileEnd, ← hs.offset_eq] at hlen
  have hoffset := hs.offset_eq
  refine ⟨offset, hentries, ?_, ?_, hoffset, fun a t hat => ?_, ?_⟩
  · refine ⟨s.drop (fileFront maxTensors ts offset text.length).length, ?_⟩
    rw [hbytes, hentries, fileFront, entryTable, List.append_assoc]
  · rw [hbytes, length_overwrite (by omega), hs.length]
  · obtain ⟨hle, hend, hslice⟩ := hs.data a t hat
    refine ⟨hle, hend, ?_⟩
    rw [hbytes, slice_overwrite (by omega), hslice]
  · rw [hbytes, slice_overwrite (by omega), hs.metadata]

/-- **The writer writes such a file.** -/
lemma writeFile_spec (hts : Writable maxTensors ts)
    (hobject : json.fromStr metadataJson = some (.object members))
    (htext : utf8 (json.toString (fileMetadata iter ts members)) = text) (hne : text ≠ [])
    (hfits : fileEnd maxTensors ts text < 2 ^ 64) :
    ∃ w offset bytes, writeFile json iter maxTensors ts metadataJson = .ok (w, bytes) ∧
      Written maxTensors ts text w offset bytes := by
  have hpos := tableEnd_ne_zero hts.max
  have hceil := le_ceilTo (by decide : 0 < 8) (dataEnd (dataStart maxTensors) ts)
  have hend : dataEnd (dataStart maxTensors) ts < 2 ^ 64 := by
    rw [fileEnd] at hfits
    omega
  obtain ⟨w, hw, hwrote⟩ := BqntWriter.writeTensors_spec (BqntWriter.reserved_ready hpos)
    hts.hashes (fun t (_ : t ∈ ts) => AList.notMem_empty _)
    (by rw [BqntWriter.reserved_cursor, ← dataStart]; exact hend)
  rw [← BqntWriter.writeTensors_create hpos hts.nonempty] at hw
  have hmeta : w.augmentedMetadata json iter metadataJson = fileMetadata iter ts members := by
    rw [BqntWriter.augmentedMetadata, hobject, hwrote.names]
    rfl
  obtain ⟨offset, hwritten⟩ := finish_written hts hw (by rw [hmeta]; exact htext) hne hfits
  exact ⟨w, offset, w.finish json iter metadataJson, by rw [writeFile, hw], hwritten⟩

variable {w : BqntWriter} {offset : UInt64} {bytes : List UInt8}

/-- **The reader accepts such a file.** -/
lemma openFile_spec (hw : Written maxTensors ts text w offset bytes)
    (hts : Writable maxTensors ts) (hfits : fileEnd maxTensors ts text < 2 ^ 64) :
    ∃ f, BqntFile.openFile bytes = .ok f ∧ f.nTensors = ts.length ∧ f.metadataOffset = offset ∧
      f.metadataSize = UInt64.ofNat text.length ∧
      f.entries.entries = (w.entries.map fun e => ⟨e.nameHash, e⟩).reverse := by
  obtain ⟨rest, hbytes⟩ := hw.header
  have hlen := hw.length
  have hoff := hw.offset_eq
  have hceil := le_ceilTo (by decide : 0 < 8) (dataEnd (dataStart maxTensors) ts)
  have hstart := le_dataEnd (dataStart maxTensors) ts
  have hend : fileEnd maxTensors ts text =
      ceilTo 8 (dataEnd (dataStart maxTensors) ts) + text.length := rfl
  have htable : 32 + maxTensors * 48 ≤ dataStart maxTensors := le_tableEnd hts.max
  have hcount := hts.count
  have hsize : (UInt64.ofNat text.length).toNat = text.length :=
    UInt64.toNat_ofNat_of_lt' (by change text.length < 2 ^ 64; omega)
  have hpos : 0 < maxTensors := lt_of_lt_of_le (List.length_pos_iff.mpr hts.nonempty) hcount
  obtain ⟨h, hheader, hfile, hn, htableEnd, hmeta, hmetaSize, -⟩ := readHeader_spec hbytes
    (by rw [hlen]; exact hfits) (lt_of_le_of_lt hcount hts.max) hpos hts.max (by omega)
    (by rw [hsize]; omega)
    (by rw [← dataStart]; omega)
  have hlength : w.entries.length = ts.length := by
    rw [hw.entries, List.length_map, ← congrArg List.length (placed_map_snd _ ts),
      List.length_map]
  have hhashes : w.entries.map (·.nameHash) = ts.map fun t => fnv1a64 t.name := by
    rw [hw.entries, List.map_map, ← congrArg (List.map fun t => fnv1a64 t.name)
      (placed_map_snd (dataStart maxTensors) ts), List.map_map]
    rfl
  have hok : ∀ e ∈ w.entries, EntryOk h e := by
    intro e he
    rw [hw.entries] at he
    obtain ⟨⟨a, t⟩, hat, rfl⟩ := List.mem_map.mp he
    obtain ⟨hle, hle', -⟩ := hw.data a t hat
    have ht : t ∈ ts := by
      rw [← placed_map_snd (dataStart maxTensors) ts]
      exact List.mem_map.mpr ⟨_, hat, rfl⟩
    refine entryOk_of_placed (hts.rank t ht) (hts.size t ht) ?_ ?_ ?_
    · rw [htableEnd, ← dataStart]
      exact hle
    · rw [hmeta]
      omega
    · rw [hfile]
      omega
  obtain ⟨entries, hread, hentries⟩ := readEntries_spec rest hok
    (by rw [hhashes]; exact hts.hashes) (fun e _ => AList.notMem_empty e.nameHash)
  rw [hlength] at hread
  refine ⟨⟨entries, ts.length, offset, UInt64.ofNat text.length⟩, ?_, rfl, rfl, rfl, ?_⟩
  · simp only [BqntFile.openFile, hheader, hn, hread, hmeta, hmetaSize]
  · rw [hentries, AList.empty_entries, List.append_nil]

/-- The names of a file, in any order. -/
lemma names_of_writable (hts : Writable maxTensors ts) :
    (addNames ∅ ts).entries.Perm (ts.map nameEntry) := by
  rw [entries_addNames hts.hashes fun t _ => AList.notMem_empty _, AList.empty_entries,
    List.append_nil]
  exact List.reverse_perm _

/-- The bytes of an entry are those of its tensor. -/
lemma entryData_of_placed {f : MmapBqnt} (hw : Written maxTensors ts text w offset bytes)
    (hfits : fileEnd maxTensors ts text < 2 ^ 64) (hmmap : f.mmap = bytes) {a : ℕ} {t : Tensor}
    (hat : (a, t) ∈ placed (dataStart maxTensors) ts) :
    f.entryData (entryOf (a, t)) = some t.data := by
  obtain ⟨-, hle, hslice⟩ := hw.data a t hat
  have hceil := le_ceilTo (by decide : 0 < 8) (dataEnd (dataStart maxTensors) ts)
  have hlen := hw.length
  rw [fileEnd] at hlen hfits
  have ha : (entryOf (a, t)).dataOffset.toNat = a :=
    UInt64.toNat_ofNat_of_lt' (by change a < 2 ^ 64; omega)
  have hbytes : (entryOf (a, t)).dataBytes.toNat = t.data.length :=
    UInt64.toNat_ofNat_of_lt' (by change t.data.length < 2 ^ 64; omega)
  rw [MmapBqnt.entryData, hmmap, ha, hbytes, if_pos (by omega), hslice]

/-- The metadata of a file. -/
lemma metadata_of_written {f : MmapBqnt} {s : String}
    (hw : Written maxTensors ts (utf8 s) w offset bytes)
    (hfits : fileEnd maxTensors ts (utf8 s) < 2 ^ 64) (hmmap : f.mmap = bytes)
    (hoffset : f.header.metadataOffset = offset)
    (hsize : f.header.metadataSize = UInt64.ofNat (utf8 s).length) : f.metadata = .ok s := by
  have hlen := hw.length
  rw [fileEnd, ← hw.offset_eq] at hlen hfits
  have hn : (UInt64.ofNat (utf8 s).length).toNat = (utf8 s).length :=
    UInt64.toNat_ofNat_of_lt' (by change (utf8 s).length < 2 ^ 64; omega)
  simp only [MmapBqnt.metadata, hmmap, hoffset, hsize, hn]
  rw [if_pos hlen.ge, hw.metadata, fromUtf8_utf8]

/-- The name table of a file. -/
lemma readNameTable_of_written {f : BqntFile} {s : String}
    (hw : Written maxTensors ts (utf8 s) w offset bytes)
    (hfits : fileEnd maxTensors ts (utf8 s) < 2 ^ 64) (hne : utf8 s ≠ [])
    (hoffset : f.metadataOffset = offset)
    (hsize : f.metadataSize = UInt64.ofNat (utf8 s).length)
    (hparse : json.fromStr s = some (fileMetadata iter ts members)) :
    MmapBqnt.readNameTable json bytes f =
      some ((BqntWriter.nameTable (N := N) (iter (addNames ∅ ts))).foldl
        MmapBqnt.insertName ∅) := by
  have hlen := hw.length
  rw [fileEnd, ← hw.offset_eq] at hlen hfits
  have hn : (UInt64.ofNat (utf8 s).length).toNat = (utf8 s).length :=
    UInt64.toNat_ofNat_of_lt' (by change (utf8 s).length < 2 ^ 64; omega)
  have hpos : 0 < (utf8 s).length := List.length_pos_iff.mpr hne
  have hget : (fileMetadata iter ts members).get "name_table" =
      some (.object (BqntWriter.nameTable (iter (addNames ∅ ts)))) := Json.lookup_insert_self
  simp only [MmapBqnt.readNameTable, hoffset, hsize, hn]
  rw [if_pos ⟨hlen.ge, hpos⟩, hw.metadata, fromUtf8_utf8]
  simp only [Option.bind_eq_bind, Option.bind_some, hparse, hget]
  rfl

end Written

/-! ### Looking tensors up -/

/-- What the reader holds after it opened a file of the writer. -/
structure Opened (placement : List (ℕ × Tensor)) (f : MmapBqnt) : Prop where
  entries : f.header.entries.entries =
    (placement.map fun p => ⟨(entryOf p).nameHash, entryOf p⟩).reverse
  data : ∀ p ∈ placement, f.entryData (entryOf p) = some p.2.data
  names : ∃ table, f.nameTable = some table ∧
    table.entries.Perm (placement.map fun p => nameEntry p.2)

namespace Opened

variable {placement : List (ℕ × Tensor)} {f : MmapBqnt} {p : ℕ × Tensor} {name : String}

/-- Every tensor has its entry. -/
lemma get (h : Opened placement f) (hp : p ∈ placement) :
    f.header.get p.2.name = some (entryOf p) := by
  refine AList.mem_lookup_iff.mpr ?_
  rw [h.entries, List.mem_reverse]
  exact List.mem_map.mpr ⟨p, hp, rfl⟩

/-- Every entry belongs to a tensor with the same hash. -/
lemma exists_of_get (h : Opened placement f) {e : TensorEntry}
    (hget : f.header.get name = some e) :
    ∃ p ∈ placement, fnv1a64 p.2.name = fnv1a64 name := by
  have hmem := AList.mem_lookup_iff.mp hget
  rw [h.entries, List.mem_reverse, List.mem_map] at hmem
  obtain ⟨p, hp, heq⟩ := hmem
  exact ⟨p, hp, congrArg Sigma.fst heq⟩

/-- The name table has every tensor under its hash. -/
lemma stored (h : Opened placement f) (hp : p ∈ placement) {hash : UInt64}
    (hhash : hash = fnv1a64 p.2.name) :
    (f.nameTable.bind fun t => t.lookup hash) = some p.2.name := by
  obtain ⟨table, htable, hnames⟩ := h.names
  have hmem : nameEntry p.2 ∈ table.entries := hnames.mem_iff.mpr (List.mem_map.mpr ⟨p, hp, rfl⟩)
  rw [htable, Option.bind_some, hhash]
  exact AList.mem_lookup_iff.mpr hmem

/-- **The bytes under a name that was written.** -/
lemma tensorData (h : Opened placement f) (hp : p ∈ placement) :
    f.tensorData p.2.name = some p.2.data := by
  simp only [MmapBqnt.tensorData, h.get hp, h.stored hp rfl, ne_eq, not_true_eq_false, if_false]
  exact h.data p hp

/-- **Another name has no data**: it has no entry, or the name table has the entry under its
own name. -/
lemma tensorData_other (h : Opened placement f)
    (hname : name ∉ placement.map fun p => p.2.name) : f.tensorData name = none := by
  cases hget : f.header.get name with
  | none => simp only [MmapBqnt.tensorData, hget]
  | some e =>
      obtain ⟨p, hp, hhash⟩ := h.exists_of_get hget
      have hdiff : p.2.name ≠ name := fun heq => hname (List.mem_map.mpr ⟨p, hp, heq⟩)
      simp only [MmapBqnt.tensorData, hget, h.stored hp hhash.symm, if_pos hdiff]

/-- **The tensors of the file**, last first. -/
lemma iterTensors (h : Opened placement f) : f.iterTensors =
    (placement.map fun p => ((entryOf p).nameHash, entryOf p, p.2.data)).reverse := by
  rw [MmapBqnt.iterTensors, h.entries, List.filterMap_reverse, List.filterMap_map,
    ← List.filterMap_eq_map]
  congr 1
  refine List.filterMap_congr fun p hp => ?_
  change Option.map _ (f.entryData (entryOf p)) = _
  rw [h.data p hp]
  rfl

/-- **The names of the file.** -/
lemma tensorNames (h : Opened placement f) :
    f.tensorNames.Perm (placement.map fun p => p.2.name) := by
  obtain ⟨table, htable, hnames⟩ := h.names
  have hmap := hnames.map Sigma.snd
  rw [List.map_map] at hmap
  rw [MmapBqnt.tensorNames, htable]
  exact hmap

end Opened

/-- **The reader opens a file of the writer**, and holds its tensors. -/
lemma openMmap_spec {json : SerdeJson N} {maxTensors : ℕ} {ts : List Tensor}
    {iter : HashMap UInt64 String → List (Sigma fun _ : UInt64 => String)}
    {members : List (String × Json N)} {w : BqntWriter} {offset : UInt64} {bytes : List UInt8}
    {s : String} (hiter : ∀ names, (iter names).Perm names.entries) (hts : Writable maxTensors ts)
    (hw : Written maxTensors ts (utf8 s) w offset bytes)
    (hfits : fileEnd maxTensors ts (utf8 s) < 2 ^ 64) (hne : utf8 s ≠ [])
    (hparse : json.fromStr s = some (fileMetadata iter ts members)) :
    ∃ f, BqntFile.openFile bytes = .ok f.header ∧ MmapBqnt.openMmap json bytes = .ok f ∧
      Opened (placed (dataStart maxTensors) ts) f ∧ f.nTensors = ts.length ∧
      f.metadata = .ok s := by
  obtain ⟨header, hopen, hn, hoffset, hsize, hentries⟩ := openFile_spec hw hts hfits
  -- the names, as the reader finds them
  have hperm := (hiter (addNames ∅ ts)).trans (names_of_writable hts)
  have hnodup : (iter (addNames ∅ ts)).NodupKeys :=
    (List.perm_nodupKeys (hiter _)).mpr (AList.nodupKeys _)
  have htable := readNameTable_of_written hw hfits hne hoffset hsize hparse
  refine ⟨⟨bytes, header, MmapBqnt.readNameTable json bytes header⟩, hopen,
    by rw [MmapBqnt.openMmap, hopen], ⟨?_, fun p hp => entryData_of_placed hw hfits rfl hp, _,
      htable, ?_⟩, hn, metadata_of_written hw hfits rfl hoffset hsize⟩
  · change header.entries.entries = _
    rw [hentries, hw.entries, List.map_map]
    rfl
  · refine (nameTable_spec hnodup).trans (hperm.trans (List.Perm.of_eq ?_))
    rw [← congrArg (List.map nameEntry) (placed_map_snd (dataStart maxTensors) ts), List.map_map]
    rfl

/-- **Round trip.**  Take any tensors with distinct hashes, of rank at most 16 and of the
packed size of their format, at most as many as entries are reserved, and any metadata that
is a JSON object, such that the file stays below `2 ^ 64` bytes.  The writer succeeds, and
`MmapBqnt::open` accepts what it wrote.  Under each name it returns the entry and the bytes
that were written; the metadata is the object with the name table added; and there is no
other tensor: the names are those that were written, the tensors are the entries of the
writer with their bytes, and no other name has data. -/
theorem bqnt_roundTrip (json : SerdeJson N)
    (iter : HashMap UInt64 String → List (Sigma fun _ : UInt64 => String))
    (hiter : ∀ names, (iter names).Perm names.entries) (maxTensors : ℕ) (ts : List Tensor)
    (hts : Writable maxTensors ts) (metadataJson : String) (members : List (String × Json N))
    (hobject : json.fromStr metadataJson = some (.object members))
    (hparse : json.fromStr (json.toString (fileMetadata iter ts members)) =
      some (fileMetadata iter ts members))
    (hempty : json.fromStr "" = none)
    (hfits : fileEnd maxTensors ts (utf8 (json.toString (fileMetadata iter ts members))) <
      2 ^ 64) :
    ∃ w bytes f, writeFile json iter maxTensors ts metadataJson = .ok (w, bytes) ∧
      BqntFile.openFile bytes = .ok f.header ∧ MmapBqnt.openMmap json bytes = .ok f ∧
      (∀ (i : ℕ) t, ts[i]? = some t → ∃ a, w.entries[i]? = some (entryOf (a, t)) ∧
        f.entry t.name = some (entryOf (a, t)) ∧ f.tensorData t.name = some t.data) ∧
      (∃ s, f.metadata = .ok s ∧ json.fromStr s = some (fileMetadata iter ts members)) ∧
      (∀ t ∈ ts, (BqntWriter.nameTable (N := N) (iter (addNames ∅ ts))).lookup
        (hexKey (fnv1a64 t.name)) = some (.string t.name)) ∧
      f.nTensors = ts.length ∧ f.tensorNames.Perm (ts.map (·.name)) ∧
      f.iterTensors.Perm ((w.entries.zip ts).map fun p => (p.1.nameHash, p.1, p.2.data)) ∧
      ∀ name ∉ ts.map (·.name), f.tensorData name = none := by
  set text := utf8 (json.toString (fileMetadata iter ts members)) with htext
  have hne : text ≠ [] := utf8_ne_nil fun hnil => by
    rw [hnil, hempty] at hparse
    cases hparse
  obtain ⟨w, offset, bytes, hwrite, hw⟩ := writeFile_spec hts hobject htext.symm hne hfits
  obtain ⟨f, hopen, hmmap, hopened, hn, hmeta⟩ := openMmap_spec hiter hts hw hfits hne hparse
  have hperm := (hiter (addNames ∅ ts)).trans (names_of_writable hts)
  have hnodup : (iter (addNames ∅ ts)).NodupKeys :=
    (List.perm_nodupKeys (hiter _)).mpr (AList.nodupKeys _)
  set placement := placed (dataStart maxTensors) ts with hplacement
  have hsnd : placement.map Prod.snd = ts := placed_map_snd _ ts
  refine ⟨w, bytes, f, hwrite, hopen, hmmap, fun i t hi => ?_, ⟨_, hmeta, hparse⟩,
    fun t ht => ?_, hn, ?_, ?_, fun name hname => ?_⟩
  · rw [← hsnd, List.getElem?_map, Option.map_eq_some_iff] at hi
    obtain ⟨⟨a, t'⟩, hp, rfl⟩ := hi
    have hmem := List.mem_of_getElem? hp
    exact ⟨a, by rw [hw.entries, List.getElem?_map, hp]; rfl, hopened.get hmem,
      hopened.tensorData hmem⟩
  · have hmem : nameEntry t ∈ iter (addNames ∅ ts) :=
      hperm.mem_iff.mpr (List.mem_map.mpr ⟨t, ht, rfl⟩)
    have hlookup := lookup_nameTable (N := N) hnodup hmem
    rwa [nameEntry] at hlookup
  · have hnames := hopened.tensorNames
    rwa [← hsnd, List.map_map]
  · have hzip : w.entries.zip ts = placement.map fun p => (entryOf p, p.2) := by
      rw [hw.entries, ← List.zip_map']
      exact congrArg _ hsnd.symm
    rw [hopened.iterTensors, hzip, List.map_map]
    exact List.reverse_perm _
  · refine hopened.tensorData_other ?_
    rwa [← hsnd, List.map_map] at hname

/-- A tensor of one element. -/
def oneTensor : Tensor :=
  { name := "x", format := .bf16, outFeatures := 1, inFeatures := 1, ndim := 2, data := [0, 0] }

/-- Two tensors, with 65534 bytes of padding between them. -/
def twoTensors : List Tensor :=
  [oneTensor, { oneTensor with name := "y", inFeatures := 2, data := [1, 2, 3, 4] }]

/-- The member of a name table for the first of them. -/
def xMember : String × Json Empty := ("0xaf63f54c86021707", .string "x")

/-- The member for the second. -/
def yMember : String × Json Empty := ("0xaf63f44c86021554", .string "y")

/-- The metadata with a name table. -/
def tableOf (members : List (String × Json Empty)) : Json Empty :=
  .object [("name_table", .object members)]

/-- Its compact text. -/
def tableText (members : List (String × Json Empty)) : String :=
  "\x7b\"name_table\":\x7b" ++ ",".intercalate
    (members.map fun m => "\"" ++ m.1 ++ "\":\"" ++ m.2.asStr.getD "" ++ "\"") ++ "\x7d\x7d"

/-- `serde_json` on the empty object and on the metadata of the tensors and of the first of them. -/
def tensorsJson : SerdeJson Empty where
  fromStr s :=
    if s = "\x7b\x7d" then some (.object [])
    else if s = tableText [yMember, xMember] then some (tableOf [yMember, xMember])
    else if s = tableText [xMember] then some (tableOf [xMember])
    else none
  toString
    | .object [(_, .object members)] => tableText members
    | _ => "\x7b\x7d"

/-- What the writer makes of empty metadata. -/
lemma fileMetadata_twoTensors :
    fileMetadata (N := Empty) (·.entries) twoTensors [] = tableOf [yMember, xMember] := by
  have hx : hexKey (fnv1a64 "x") = "0xaf63f54c86021707" := by decide +kernel
  have hy : hexKey (fnv1a64 "y") = "0xaf63f44c86021554" := by decide +kernel
  rw [tableOf, xMember, yMember, ← hx, ← hy]
  rfl

lemma twoTensors_writable : Writable 2 twoTensors := by
  refine ⟨by simp [twoTensors], by decide +kernel, ?_, ?_, le_rfl, by decide⟩ <;> decide

/-- The metadata of the two tensors comes back. -/
lemma tensorsJson_twoTensors : tensorsJson.fromStr (tensorsJson.toString
    (fileMetadata (·.entries) twoTensors [])) = some (fileMetadata (·.entries) twoTensors []) := by
  rw [fileMetadata_twoTensors]
  rfl

lemma fileEnd_twoTensors : fileEnd 2 twoTensors (utf8 (tensorsJson.toString
    (fileMetadata (·.entries) twoTensors []))) < 2 ^ 64 := by
  rw [fileMetadata_twoTensors]
  decide +kernel

/-- A file of two tensors and empty metadata. -/
theorem bqnt_roundTrip_two_tensors :
    ∃ w bytes f, writeFile tensorsJson (·.entries) 2 twoTensors "\x7b\x7d" = .ok (w, bytes) ∧
      MmapBqnt.openMmap tensorsJson bytes = .ok f ∧ f.tensorData "x" = some [0, 0] ∧
      f.tensorData "y" = some [1, 2, 3, 4] ∧ f.tensorNames.Perm ["x", "y"] := by
  obtain ⟨w, bytes, f, hwrite, -, hopen, hdata, -, -, -, hnames, -, -⟩ :=
    bqnt_roundTrip tensorsJson (·.entries) (fun _ => .refl _) 2 twoTensors twoTensors_writable
      "\x7b\x7d" [] rfl tensorsJson_twoTensors rfl fileEnd_twoTensors
  obtain ⟨-, -, -, hx⟩ := hdata 0 _ rfl
  obtain ⟨-, -, -, hy⟩ := hdata 1 _ rfl
  exact ⟨w, bytes, f, hwrite, hopen, hx, hy, hnames⟩

end Braidinfer.Bqnt
