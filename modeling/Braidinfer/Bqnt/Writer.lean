/-
`BqntWriter` (`bqnt.rs`): tensors are streamed behind a region reserved for the header and
the entry table, which `finish` fills in last.

* `BqntWriter.writeTensor`, `BqntWriter.finish`: the two operations;
* `placed`, `dataEnd`, `body`: where the tensors go, in exact arithmetic;
* `writeTensors_spec`: **streaming writes that layout** and records it in the entries;
* `finish_spec`: **the bytes of a finished file**.
-/
import Mathlib.Data.List.AList
import Braidinfer.Bqnt.Format
import Braidinfer.Bqnt.Metadata

namespace Braidinfer.Bqnt

open Braidinfer.Lib

/-- `HashMap<K, V>`.  Nothing here depends on the order in which it lists its entries. -/
abbrev HashMap (K V : Type) := AList fun _ : K => V

/-- The part of `serde_json` that is used: `from_str` and `to_string`. -/
structure SerdeJson (N : Type) where
  fromStr : String → Option (Json N)
  toString : Json N → String

/-- The arguments of `write_tensor`. -/
structure Tensor where
  name : String
  format : StorageDtype
  outFeatures : UInt32
  inFeatures : UInt32
  ndim : UInt32
  data : List UInt8

/-- The panic of `write_tensor`: two names with one hash. -/
structure HashCollision where
  existing : String
  name : String
  hash : UInt64

/-- `BqntWriter`. -/
structure BqntWriter where
  writer : ByteFile
  entries : List TensorEntry
  names : HashMap UInt64 String
  currentOffset : UInt64
  maxTensors : ℕ

/-- `u32::to_le_bytes`. -/
def u32Bytes (x : UInt32) : List UInt8 := leBytes 4 x.toNat

/-- `u64::to_le_bytes`. -/
def u64Bytes (x : UInt64) : List UInt8 := leBytes 8 x.toNat

/-- Where the data starts if `n` entries are reserved. -/
def tableEnd (n : ℕ) : UInt64 := alignUp (headerSize + UInt64.ofNat n * entrySize) alignment

namespace BqntWriter

/-- `BqntWriter::create`. -/
def create (maxTensors : ℕ) : BqntWriter :=
  { writer := .create, entries := [], names := ∅, currentOffset := 0, maxTensors }

/-- The first tensor moves the writer behind the reserved region. -/
def reserve (w : BqntWriter) : BqntWriter :=
  if w.currentOffset = 0 then
    let dataStart := tableEnd w.maxTensors
    { w with currentOffset := dataStart, writer := w.writer.seek dataStart.toNat }
  else w

/-- Zeros from `offset` up to `target`. -/
def pad (f : ByteFile) (offset target : UInt64) : ByteFile :=
  if offset < target then f.writeAll (List.replicate (target - offset).toNat 0) else f

/-- The streaming part of `write_tensor`: pad to the alignment, record the offset, write the
data. -/
def stream (w : BqntWriter) (t : Tensor) : BqntWriter :=
  let aligned := alignUp w.currentOffset alignment
  { w with
    writer := (pad w.writer w.currentOffset aligned).writeAll t.data
    entries := w.entries ++
      [{ nameHash := fnv1a64 t.name
         format := formatToCode t.format
         outFeatures := t.outFeatures
         inFeatures := t.inFeatures
         originalNdim := t.ndim
         dataOffset := aligned
         dataBytes := UInt64.ofNat t.data.length }]
    currentOffset := aligned + UInt64.ofNat t.data.length }

/-- `write_tensor`. -/
def writeTensor (w : BqntWriter) (t : Tensor) : Except HashCollision BqntWriter :=
  let hash := fnv1a64 t.name
  let named := { w with names := w.names.insert hash t.name }
  match w.names.lookup hash with
  | some existing =>
      if existing ≠ t.name then .error ⟨existing, t.name, hash⟩ else .ok (named.reserve.stream t)
  | none => .ok (named.reserve.stream t)

/-- `write_tensor` for one tensor after the other. -/
def writeTensors (w : BqntWriter) : List Tensor → Except HashCollision BqntWriter
  | [] => .ok w
  | t :: ts =>
      match w.writeTensor t with
      | .error e => .error e
      | .ok w => w.writeTensors ts

variable {N : Type}

/-- The name table, from the names in the order `iter` lists them. -/
def nameTable (names : List (Sigma fun _ : UInt64 => String)) : List (String × Json N) :=
  names.foldl (fun table e => Json.insert (hexKey e.1) (.string e.2) table) []

/-- The metadata with the name table added.  `iter` is the order in which the map of names is
iterated. -/
def augmentedMetadata (json : SerdeJson N)
    (iter : HashMap UInt64 String → List (Sigma fun _ : UInt64 => String)) (w : BqntWriter)
    (metadataJson : String) : Json N :=
  match (json.fromStr metadataJson).getD (.object []) with
  | .object members =>
      .object (Json.insert "name_table" (.object (nameTable (iter w.names))) members)
  | v => v

/-- One entry of the table. -/
def writeEntry (f : ByteFile) (e : TensorEntry) : ByteFile :=
  let f := f.writeAll (u64Bytes e.nameHash)
  let f := f.writeAll [e.format, 0, 0, 0]
  let f := f.writeAll (u32Bytes e.outFeatures)
  let f := f.writeAll (u32Bytes e.inFeatures)
  let f := f.writeAll (u32Bytes e.originalNdim)
  let f := f.writeAll (u64Bytes e.dataOffset)
  let f := f.writeAll (u64Bytes e.dataBytes)
  f.writeAll (u64Bytes 0)

/-- The header. -/
def writeHeader (f : ByteFile) (nTensors maxTensors : ℕ) (metadataOffset metadataSize : UInt64) :
    ByteFile :=
  let f := f.writeAll (u32Bytes magic)
  let f := f.writeAll (u32Bytes version)
  let f := f.writeAll (u32Bytes (UInt32.ofNat nTensors))
  let f := f.writeAll (u32Bytes (UInt32.ofNat maxTensors))
  let f := f.writeAll (u64Bytes metadataOffset)
  f.writeAll (u64Bytes metadataSize)

/-- `finish`: the metadata, then the header and the table at the start of the file. -/
def finish (json : SerdeJson N)
    (iter : HashMap UInt64 String → List (Sigma fun _ : UInt64 => String)) (w : BqntWriter)
    (metadataJson : String) : List UInt8 :=
  let metadataBytes := utf8 (json.toString (w.augmentedMetadata json iter metadataJson))
  let metadataOffset := alignUp w.currentOffset 8
  let f := (pad w.writer w.currentOffset metadataOffset).writeAll metadataBytes
  let f := writeHeader (f.seek 0) w.entries.length w.maxTensors metadataOffset
    (UInt64.ofNat metadataBytes.length)
  (w.entries.foldl writeEntry f).bytes

end BqntWriter

/-- `create`, `write_tensor` for each tensor, `finish`. -/
def writeFile {N : Type} (json : SerdeJson N)
    (iter : HashMap UInt64 String → List (Sigma fun _ : UInt64 => String)) (maxTensors : ℕ)
    (ts : List Tensor) (metadataJson : String) :
    Except HashCollision (BqntWriter × List UInt8) :=
  match (BqntWriter.create maxTensors).writeTensors ts with
  | .error e => .error e
  | .ok w => .ok (w, w.finish json iter metadataJson)

/-! ### The layout -/

/-- The tensors with their offsets, from `off` on. -/
def placed : ℕ → List Tensor → List (ℕ × Tensor)
  | _, [] => []
  | off, t :: ts =>
      (ceilTo alignment.toNat off, t) :: placed (ceilTo alignment.toNat off + t.data.length) ts

/-- Where the data ends. -/
def dataEnd : ℕ → List Tensor → ℕ
  | off, [] => off
  | off, t :: ts => dataEnd (ceilTo alignment.toNat off + t.data.length) ts

/-- The data with its padding. -/
def body : ℕ → List Tensor → List UInt8
  | _, [] => []
  | off, t :: ts =>
      List.replicate (ceilTo alignment.toNat off - off) 0 ++ t.data ++
        body (ceilTo alignment.toNat off + t.data.length) ts

/-- The entry of a tensor at an offset. -/
def entryOf (p : ℕ × Tensor) : TensorEntry :=
  { nameHash := fnv1a64 p.2.name
    format := formatToCode p.2.format
    outFeatures := p.2.outFeatures
    inFeatures := p.2.inFeatures
    originalNdim := p.2.ndim
    dataOffset := UInt64.ofNat p.1
    dataBytes := UInt64.ofNat p.2.data.length }

/-- The name of a tensor under its hash. -/
def nameEntry (t : Tensor) : Sigma fun _ : UInt64 => String := ⟨fnv1a64 t.name, t.name⟩

/-- The map of names after the tensors `ts` were added to it. -/
def addNames (names : HashMap UInt64 String) (ts : List Tensor) : HashMap UInt64 String :=
  ts.foldl (fun names t => names.insert (fnv1a64 t.name) t.name) names

variable {off : ℕ} {ts : List Tensor} {a : ℕ} {t : Tensor}

/-- The other names stay new when one is added. -/
lemma hash_notMem_insert {names : HashMap UInt64 String}
    (hnodup : ((t :: ts).map fun t => fnv1a64 t.name).Nodup)
    (hnew : ∀ u ∈ t :: ts, fnv1a64 u.name ∉ names) :
    ∀ u ∈ ts, fnv1a64 u.name ∉ names.insert (fnv1a64 t.name) t.name := by
  intro u hu hmem
  rcases (AList.mem_insert _).mp hmem with heq | hmem
  · exact (List.nodup_cons.mp hnodup).1 (List.mem_map.mpr ⟨u, hu, heq⟩)
  · exact hnew u (List.mem_cons_of_mem _ hu) hmem

/-- Names with new, distinct hashes are added in front. -/
lemma entries_addNames {names : HashMap UInt64 String}
    (hnodup : (ts.map fun t => fnv1a64 t.name).Nodup)
    (hnew : ∀ t ∈ ts, fnv1a64 t.name ∉ names) :
    (addNames names ts).entries = (ts.map nameEntry).reverse ++ names.entries := by
  induction ts generalizing names with
  | nil => rfl
  | cons t ts ih =>
      change (addNames (names.insert (fnv1a64 t.name) t.name) ts).entries = _
      rw [ih (List.nodup_cons.mp hnodup).2 (hash_notMem_insert hnodup hnew),
        AList.entries_insert_of_notMem (hnew t List.mem_cons_self)]
      simp [nameEntry]

lemma le_ceil (off : ℕ) : off ≤ ceilTo alignment.toNat off := le_ceilTo (by decide) off

lemma le_dataEnd (off : ℕ) (ts : List Tensor) : off ≤ dataEnd off ts := by
  induction ts generalizing off with
  | nil => exact le_rfl
  | cons t ts ih =>
      calc off ≤ ceilTo alignment.toNat off + t.data.length :=
            (le_ceil off).trans (Nat.le_add_right _ _)
        _ ≤ dataEnd (ceilTo alignment.toNat off + t.data.length) ts := ih _

lemma placed_map_snd (off : ℕ) (ts : List Tensor) : (placed off ts).map Prod.snd = ts := by
  induction ts generalizing off with
  | nil => rfl
  | cons t ts ih => rw [placed, List.map_cons, ih]

/-- Every tensor lies within the data, and its bytes are there. -/
lemma placed_spec (h : (a, t) ∈ placed off ts) :
    off ≤ a ∧ a + t.data.length ≤ dataEnd off ts ∧
      ∀ start rest, start.length = off →
        slice (start ++ body off ts ++ rest) a t.data.length = t.data := by
  induction ts generalizing off with
  | nil => cases h
  | cons u ts ih =>
      have hceil := le_ceil off
      rw [placed] at h
      rcases List.mem_cons.mp h with heq | h
      · obtain ⟨rfl, rfl⟩ := Prod.mk.inj heq
        refine ⟨hceil, le_dataEnd _ _, fun start rest hstart => ?_⟩
        rw [body]
        have hlen : (start ++ List.replicate (ceilTo alignment.toNat off - off) 0).length =
            ceilTo alignment.toNat off := by
          rw [List.length_append, List.length_replicate, hstart]
          omega
        have hmid := slice_middle (start ++ List.replicate (ceilTo alignment.toNat off - off) 0)
          t.data (body (ceilTo alignment.toNat off + t.data.length) ts ++ rest)
        rw [hlen] at hmid
        simpa only [List.append_assoc] using hmid
      · obtain ⟨hle, hend, hslice⟩ := ih h
        refine ⟨by omega, hend, fun start rest hstart => ?_⟩
        rw [body]
        have hnext := hslice (start ++ (List.replicate (ceilTo alignment.toNat off - off) 0 ++
          u.data)) rest (by
            rw [List.length_append, List.length_append, List.length_replicate, hstart]
            omega)
        simpa only [List.append_assoc] using hnext

/-! ### Streaming -/

namespace BqntWriter

variable {w w' w'' : BqntWriter}

/-- Padding at the end of the file. -/
lemma pad_spec {f : ByteFile} {offset : UInt64} (target : UInt64) (hend : f.AtEnd)
    (hcursor : offset.toNat = f.cursor) (hle : offset.toNat ≤ target.toNat) :
    (pad f offset target).AtEnd ∧ (pad f offset target).cursor = target.toNat ∧
      (pad f offset target).image =
        f.image ++ List.replicate (target.toNat - offset.toNat) 0 := by
  rw [pad]
  split_ifs with hlt
  · have hsub : (target - offset).toNat = target.toNat - offset.toNat :=
      UInt64.toNat_sub_of_le _ _ (UInt64.le_iff_toNat_le.mpr hle)
    obtain ⟨hend', himage, hcursor'⟩ :=
      ByteFile.writeAll_image (a := List.replicate (target - offset).toNat 0) hend
    refine ⟨hend', ?_, by rw [himage, hsub]⟩
    rw [hcursor', List.length_replicate, hsub, ← hcursor]
    omega
  · have heq : target.toNat = offset.toNat :=
      le_antisymm (Nat.not_lt.mp fun h => hlt (UInt64.lt_iff_toNat_lt.mpr h)) hle
    rw [heq, Nat.sub_self, List.replicate_zero, List.append_nil]
    exact ⟨hend, hcursor.symm, rfl⟩

/-- A writer that is at its offset, behind the reserved region. -/
structure Ready (w : BqntWriter) : Prop where
  atEnd : w.writer.AtEnd
  offset : w.currentOffset.toNat = w.writer.cursor
  started : 0 < w.writer.cursor

/-- What writing the tensors `ts` did. -/
structure Wrote (w w' : BqntWriter) (ts : List Tensor) : Prop where
  ready : w'.Ready
  image : w'.writer.image = w.writer.image ++ body w.writer.cursor ts
  cursor : w'.writer.cursor = dataEnd w.writer.cursor ts
  entries : w'.entries = w.entries ++ (placed w.writer.cursor ts).map entryOf
  names : w'.names = addNames w.names ts
  maxTensors : w'.maxTensors = w.maxTensors

lemma Wrote.nil (h : w.Ready) : Wrote w w [] :=
  ⟨h, (List.append_nil _).symm, rfl, (List.append_nil _).symm, rfl, rfl⟩

lemma Wrote.cons (h : Wrote w w' [t]) (h' : Wrote w' w'' ts) : Wrote w w'' (t :: ts) := by
  have hcursor : w'.writer.cursor =
      ceilTo alignment.toNat w.writer.cursor + t.data.length := h.cursor
  refine ⟨h'.ready, ?_, ?_, ?_, ?_, h'.maxTensors.trans h.maxTensors⟩
  · rw [h'.image, h.image, hcursor, body, body, body, List.append_nil, List.append_assoc]
  · rw [h'.cursor, hcursor]
    rfl
  · rw [h'.entries, h.entries, hcursor, List.append_assoc]
    rfl
  · rw [h'.names, h.names]
    rfl

/-- A ready writer has reserved its region. -/
lemma Ready.reserve (h : w.Ready) : w.reserve = w := by
  have hzero : w.currentOffset ≠ 0 := fun h0 => by
    have := h.offset
    rw [h0] at this
    exact absurd h.started (by rw [← this]; decide)
  exact if_neg hzero

/-- The writer with one more name. -/
def named (w : BqntWriter) (t : Tensor) : BqntWriter :=
  { w with names := w.names.insert (fnv1a64 t.name) t.name }

/-- **Streaming one tensor.** -/
lemma stream_spec (h : w.Ready) (hfits : dataEnd w.writer.cursor [t] < 2 ^ 64) :
    Wrote w ((w.named t).reserve.stream t) [t] := by
  have hlt : ceilTo alignment.toNat w.writer.cursor + t.data.length < 2 ^ 64 := hfits
  have haligned : (alignUp w.currentOffset alignment).toNat =
      ceilTo alignment.toNat w.writer.cursor := by
    rw [toNat_alignUp_of_lt (k := 16) (by decide) (by decide) (by rw [h.offset]; omega), h.offset]
  have hle := le_ceil w.writer.cursor
  have hready : (w.named t).Ready := ⟨h.atEnd, h.offset, h.started⟩
  rw [hready.reserve]
  obtain ⟨hend, hcursor, himage⟩ := pad_spec (alignUp w.currentOffset alignment)
    h.atEnd h.offset (by rw [haligned, h.offset]; exact hle)
  obtain ⟨hend', himage', hcursor'⟩ := ByteFile.writeAll_image (a := t.data) hend
  have hoff : (((w.named t).stream t).currentOffset).toNat =
      ceilTo alignment.toNat w.writer.cursor + t.data.length := by
    change (alignUp w.currentOffset alignment + UInt64.ofNat t.data.length).toNat = _
    rw [UInt64.toNat_add, haligned,
      UInt64.toNat_ofNat_of_lt' (lt_of_le_of_lt (Nat.le_add_left _ _) hlt), Nat.mod_eq_of_lt hlt]
  refine ⟨⟨hend', ?_, ?_⟩, ?_, ?_, ?_, ?_, rfl⟩
  · rw [hoff]
    exact (hcursor'.trans (by rw [hcursor, haligned])).symm
  · change 0 < ((pad w.writer w.currentOffset (alignUp w.currentOffset alignment)).writeAll
      t.data).cursor
    rw [hcursor', hcursor, haligned]
    have := h.started
    omega
  · change ((pad w.writer w.currentOffset (alignUp w.currentOffset alignment)).writeAll
      t.data).image = _
    rw [himage', himage, haligned, h.offset, body, body, List.append_nil, List.append_assoc]
  · exact hcursor'.trans (by rw [hcursor, haligned]; rfl)
  · change w.entries ++ [_] = w.entries ++ [entryOf _]
    rw [entryOf, ← haligned, UInt64.ofNat_toNat]
    rfl
  · rfl

/-- **One tensor.** -/
lemma writeTensor_spec (h : w.Ready) (hnew : fnv1a64 t.name ∉ w.names)
    (hfits : dataEnd w.writer.cursor [t] < 2 ^ 64) :
    ∃ w', w.writeTensor t = .ok w' ∧ Wrote w w' [t] := by
  have hnone : w.names.lookup (fnv1a64 t.name) = none := AList.lookup_eq_none.mpr hnew
  refine ⟨(w.named t).reserve.stream t, ?_, stream_spec h hfits⟩
  simp only [writeTensor, hnone, named]

/-- **Streaming**: any list of tensors with new, distinct hashes. -/
theorem writeTensors_spec (h : w.Ready)
    (hnodup : (ts.map fun t => fnv1a64 t.name).Nodup)
    (hnew : ∀ t ∈ ts, fnv1a64 t.name ∉ w.names)
    (hfits : dataEnd w.writer.cursor ts < 2 ^ 64) :
    ∃ w', w.writeTensors ts = .ok w' ∧ Wrote w w' ts := by
  induction ts generalizing w with
  | nil => exact ⟨w, rfl, .nil h⟩
  | cons t ts ih =>
      have hone : dataEnd w.writer.cursor [t] < 2 ^ 64 :=
        lt_of_le_of_lt (le_dataEnd _ ts) hfits
      obtain ⟨w₁, hw₁, hwrote⟩ := writeTensor_spec h (hnew t List.mem_cons_self) hone
      have hnew₁ : ∀ u ∈ ts, fnv1a64 u.name ∉ w₁.names := by
        rw [hwrote.names]
        exact hash_notMem_insert hnodup hnew
      obtain ⟨w₂, hw₂, hwrote'⟩ := ih hwrote.ready (List.nodup_cons.mp hnodup).2 hnew₁
        (by rw [hwrote.cursor]; exact hfits)
      refine ⟨w₂, ?_, hwrote.cons hwrote'⟩
      rw [writeTensors, hw₁]
      exact hw₂

/-! ### Calls that return -/

/-- A call that returns has streamed the tensor, and the name it found was the tensor's. -/
lemma writeTensor_ok (h : w.writeTensor t = .ok w') :
    w' = (w.named t).reserve.stream t ∧
      ∀ s, w.names.lookup (fnv1a64 t.name) = some s → s = t.name := by
  rw [writeTensor] at h
  split at h
  · rename_i existing hexisting
    split_ifs at h with hne
    refine ⟨(Except.ok.inj h).symm, fun s hs => ?_⟩
    rw [← Option.some.inj (hexisting.symm.trans hs)]
    exact not_not.mp hne
  · rename_i hnone
    refine ⟨(Except.ok.inj h).symm, fun s hs => ?_⟩
    rw [hnone] at hs
    cases hs

lemma names_stream (w : BqntWriter) (t : Tensor) :
    ((w.named t).reserve.stream t).names = w.names.insert (fnv1a64 t.name) t.name := by
  rw [stream, reserve]
  split <;> rfl

lemma maxTensors_stream (w : BqntWriter) (t : Tensor) :
    ((w.named t).reserve.stream t).maxTensors = w.maxTensors := by
  rw [stream, reserve]
  split <;> rfl

/-- Each call adds one entry. -/
lemma entries_stream (w : BqntWriter) (t : Tensor) :
    ∃ e, ((w.named t).reserve.stream t).entries = w.entries ++ [e] := by
  rw [stream, reserve]
  split <;> exact ⟨_, rfl⟩

lemma writeTensors_append {us : List Tensor} (h : w.writeTensors ts = .ok w') :
    w.writeTensors (ts ++ us) = w'.writeTensors us := by
  induction ts generalizing w with
  | nil =>
      obtain rfl := Except.ok.inj h
      rfl
  | cons t ts ih =>
      rw [writeTensors] at h
      rw [List.cons_append, writeTensors]
      split at h
      · cases h
      · rename_i w₁ hw₁
        exact ih h

/-- **Names of one hash are equal**, if no call panicked. -/
lemma names_of_writeTensors (h : w.writeTensors ts = .ok w') :
    (∀ t ∈ ts, ∀ s, w.names.lookup (fnv1a64 t.name) = some s → s = t.name) ∧
      ∀ t ∈ ts, ∀ u ∈ ts, fnv1a64 t.name = fnv1a64 u.name → t.name = u.name := by
  induction ts generalizing w with
  | nil => exact ⟨by simp, by simp⟩
  | cons t ts ih =>
      rw [writeTensors] at h
      split at h
      · cases h
      rename_i w₁ hw₁
      obtain ⟨rfl, hfound⟩ := writeTensor_ok hw₁
      obtain ⟨hold, hsame⟩ := ih h
      rw [names_stream] at hold
      -- a later tensor with the hash of `t` has found its name
      have hhead : ∀ u ∈ ts, fnv1a64 t.name = fnv1a64 u.name → t.name = u.name := by
        intro u hu heq
        refine hold u hu t.name ?_
        rw [← heq]
        exact AList.lookup_insert _
      refine ⟨fun u hu s hs => ?_, fun u hu v hv heq => ?_⟩
      · rcases List.mem_cons.mp hu with rfl | hu
        · exact hfound s hs
        · by_cases heq : fnv1a64 u.name = fnv1a64 t.name
          · rw [heq] at hs
            rw [hfound s hs]
            exact hhead u hu heq.symm
          · exact hold u hu s (by rwa [AList.lookup_insert_ne heq])
      · rcases List.mem_cons.mp hu with hut | hu'
        · rcases List.mem_cons.mp hv with hvt | hv'
          · rw [hut, hvt]
          · rw [hut] at heq ⊢
            exact hhead v hv' heq
        · rcases List.mem_cons.mp hv with hvt | hv'
          · rw [hvt] at heq ⊢
            exact (hhead u hu' heq.symm).symm
          · exact hsame u hu' v hv' heq

/-- **Streaming**: what any calls that return have done. -/
lemma writeTensors_ok (hready : w.Ready) (h : w.writeTensors ts = .ok w')
    (hfits : dataEnd w.writer.cursor ts < 2 ^ 64) : Wrote w w' ts := by
  induction ts generalizing w with
  | nil =>
      obtain rfl := Except.ok.inj h
      exact .nil hready
  | cons t ts ih =>
      rw [writeTensors] at h
      split at h
      · cases h
      rename_i w₁ hw₁
      obtain ⟨rfl, -⟩ := writeTensor_ok hw₁
      have hone : dataEnd w.writer.cursor [t] < 2 ^ 64 := lt_of_le_of_lt (le_dataEnd _ ts) hfits
      have hwrote := stream_spec hready hone
      exact hwrote.cons (ih hwrote.ready h (by rw [hwrote.cursor]; exact hfits))

/-- The entries and the reserved number, whatever is streamed. -/
lemma entries_of_writeTensors (h : w.writeTensors ts = .ok w') :
    w.entries <+: w'.entries ∧ w'.entries.length = w.entries.length + ts.length ∧
      w'.maxTensors = w.maxTensors ∧ w'.names = addNames w.names ts := by
  induction ts generalizing w with
  | nil =>
      obtain rfl := Except.ok.inj h
      exact ⟨List.prefix_rfl, rfl, rfl, rfl⟩
  | cons t ts ih =>
      rw [writeTensors] at h
      split at h
      · cases h
      rename_i w₁ hw₁
      obtain ⟨rfl, -⟩ := writeTensor_ok hw₁
      obtain ⟨hpre, hlength, hmax, hnames⟩ := ih h
      obtain ⟨e, he⟩ := entries_stream w t
      rw [he] at hpre hlength
      rw [maxTensors_stream] at hmax
      rw [names_stream] at hnames
      refine ⟨(List.prefix_append _ _).trans hpre, ?_, hmax, hnames⟩
      rw [hlength, List.length_append, List.length_singleton, List.length_cons]
      omega

/-- The first entry says where the data starts. -/
lemma first_entry {maxTensors : ℕ} (h : (create maxTensors).writeTensors (t :: ts) = .ok w) :
    ∃ e es, w.entries = e :: es ∧ e.dataOffset = alignUp (tableEnd maxTensors) alignment := by
  rw [writeTensors] at h
  split at h
  · cases h
  rename_i w₁ hw₁
  obtain ⟨rfl, -⟩ := writeTensor_ok hw₁
  obtain ⟨⟨es, hes⟩, -⟩ := entries_of_writeTensors h
  refine ⟨_, es, hes.symm.trans rfl, ?_⟩
  rfl

/-! ### A whole file -/

/-- A new writer behind its reserved region. -/
def reserved (maxTensors : ℕ) : BqntWriter :=
  { create maxTensors with
    currentOffset := tableEnd maxTensors
    writer := ByteFile.create.seek (tableEnd maxTensors).toNat }

end BqntWriter

/-- Where the data starts, exactly. -/
lemma toNat_tableEnd {n : ℕ} (hn : n < 2 ^ 32) :
    (tableEnd n).toNat = ceilTo alignment.toNat (32 + n * 48) := by
  have hmul : (UInt64.ofNat n * entrySize).toNat = n * 48 := by
    rw [UInt64.toNat_mul, UInt64.toNat_ofNat_of_lt' (lt_trans hn (by decide))]
    exact Nat.mod_eq_of_lt (by change n * 48 < 2 ^ 64; omega)
  have hsum : (headerSize + UInt64.ofNat n * entrySize).toNat = 32 + n * 48 := by
    rw [UInt64.toNat_add, hmul]
    exact Nat.mod_eq_of_lt (by change 32 + n * 48 < 2 ^ 64; omega)
  rw [tableEnd, toNat_alignUp (k := 16) (by decide) (by decide) (by
    rw [hsum]; change 32 + n * 48 + 65536 - 1 < 2 ^ 64; omega), hsum]

lemma le_tableEnd {n : ℕ} (hn : n < 2 ^ 32) : 32 + n * 48 ≤ (tableEnd n).toNat := by
  rw [toNat_tableEnd hn]
  exact le_ceil _

lemma tableEnd_ne_zero {n : ℕ} (hn : n < 2 ^ 32) : tableEnd n ≠ 0 := fun h => by
  have hle := le_tableEnd hn
  rw [h] at hle
  change 32 + n * 48 ≤ 0 at hle
  omega

namespace BqntWriter

lemma reserved_cursor (maxTensors : ℕ) :
    (reserved maxTensors).writer.cursor = (tableEnd maxTensors).toNat := rfl

lemma reserved_image (maxTensors : ℕ) :
    (reserved maxTensors).writer.image = List.replicate (tableEnd maxTensors).toNat 0 :=
  ByteFile.image_seek_create _

lemma reserved_entries (maxTensors : ℕ) : (reserved maxTensors).entries = [] := rfl

lemma reserved_ready {maxTensors : ℕ} (hpos : tableEnd maxTensors ≠ 0) :
    (reserved maxTensors).Ready := by
  refine ⟨ByteFile.atEnd_seek_create _, rfl, ?_⟩
  rw [reserved_cursor]
  exact Nat.pos_of_ne_zero fun h => hpos (UInt64.toNat_inj.mp h)

/-- The first tensor is written behind the reserved region. -/
lemma writeTensors_create {maxTensors : ℕ} (hpos : tableEnd maxTensors ≠ 0) (hts : ts ≠ []) :
    (create maxTensors).writeTensors ts = (reserved maxTensors).writeTensors ts := by
  obtain ⟨t, rest, rfl⟩ := List.exists_cons_of_ne_nil hts
  have hfirst : (create maxTensors).writeTensor t = (reserved maxTensors).writeTensor t := by
    simp only [writeTensor, reserved, create, AList.lookup_empty, reserve, if_true, hpos, if_false]
  rw [writeTensors, writeTensors, hfirst]

end BqntWriter

/-- The bytes of an entry. -/
def encodeEntry (e : TensorEntry) : List UInt8 :=
  u64Bytes e.nameHash ++ [e.format, 0, 0, 0] ++ u32Bytes e.outFeatures ++
    u32Bytes e.inFeatures ++ u32Bytes e.originalNdim ++ u64Bytes e.dataOffset ++
    u64Bytes e.dataBytes ++ u64Bytes 0

/-- The bytes of the header. -/
def encodeHeader (nTensors maxTensors : ℕ) (metadataOffset metadataSize : UInt64) : List UInt8 :=
  u32Bytes magic ++ u32Bytes version ++ u32Bytes (UInt32.ofNat nTensors) ++
    u32Bytes (UInt32.ofNat maxTensors) ++ u64Bytes metadataOffset ++ u64Bytes metadataSize

lemma length_encodeEntry (e : TensorEntry) : (encodeEntry e).length = 48 := rfl

lemma length_encodeHeader (n m : ℕ) (a b : UInt64) : (encodeHeader n m a b).length = 32 := rfl

/-- The entry table. -/
def encodeTable (entries : List TensorEntry) : List UInt8 := entries.flatMap encodeEntry

lemma length_encodeTable (entries : List TensorEntry) :
    (encodeTable entries).length = entries.length * 48 := by
  induction entries with
  | nil => rfl
  | cons e entries ih =>
      rw [encodeTable, List.flatMap_cons, List.length_append, length_encodeEntry,
        List.length_cons]
      rw [encodeTable] at ih
      omega

namespace BqntWriter

variable {N : Type} {w : BqntWriter}

/-- The header and the entry table of a writer. -/
def front (w : BqntWriter) (metadataOffset metadataSize : UInt64) : List UInt8 :=
  encodeHeader w.entries.length w.maxTensors metadataOffset metadataSize ++ encodeTable w.entries

/-- Everything that was streamed: the reserved region, the tensors and the metadata. -/
def streamed (w : BqntWriter) (text : List UInt8) : List UInt8 :=
  w.writer.image ++ List.replicate (ceilTo 8 w.writer.cursor - w.writer.cursor) 0 ++ text

lemma writeEntry_eq (f : ByteFile) (e : TensorEntry) :
    writeEntry f e = f.writeAll (encodeEntry e) := by
  simp only [writeEntry, ByteFile.writeAll_append, encodeEntry]

lemma foldl_writeEntry (f : ByteFile) (entries : List TensorEntry) :
    entries.foldl writeEntry f = f.writeAll (encodeTable entries) := by
  induction entries generalizing f with
  | nil => rfl
  | cons e entries ih =>
      rw [List.foldl_cons, ih, writeEntry_eq, ByteFile.writeAll_append]
      rfl

lemma writeHeader_eq (f : ByteFile) (n m : ℕ) (a b : UInt64) :
    writeHeader f n m a b = f.writeAll (encodeHeader n m a b) := by
  simp only [writeHeader, ByteFile.writeAll_append, encodeHeader]

/-- **The bytes of a finished file**: the header and the table, written over the start of
everything that was streamed. -/
theorem finish_spec (json : SerdeJson N)
    (iter : HashMap UInt64 String → List (Sigma fun _ : UInt64 => String))
    (metadataJson : String) (h : w.Ready) {text : List UInt8}
    (htext : utf8 (json.toString (w.augmentedMetadata json iter metadataJson)) = text)
    (hne : text ≠ []) (hfits : ceilTo 8 w.writer.cursor < 2 ^ 64) :
    ∃ offset : UInt64, offset.toNat = ceilTo 8 w.writer.cursor ∧
      w.finish json iter metadataJson = w.front offset (UInt64.ofNat text.length) ++
        (w.streamed text).drop (w.front offset (UInt64.ofNat text.length)).length := by
  have hoffset : (alignUp w.currentOffset 8).toNat = ceilTo 8 w.writer.cursor := by
    have hup : (alignUp w.currentOffset 8).toNat = _ := toNat_alignUp_of_lt (k := 3) rfl
      (by decide) (by rw [h.offset]; exact hfits)
    rw [hup, h.offset]
    rfl
  refine ⟨alignUp w.currentOffset 8, hoffset, ?_⟩
  obtain ⟨hend, -, himage⟩ := pad_spec (alignUp w.currentOffset 8) h.atEnd h.offset (by
    rw [hoffset, h.offset]
    exact le_ceilTo (by decide) _)
  have hbytes := ByteFile.writeAll_bytes hend hne
  rw [himage, hoffset, h.offset] at hbytes
  rw [finish]
  simp only [htext]
  rw [foldl_writeEntry, writeHeader_eq, ByteFile.writeAll_append, ByteFile.writeAll_seek_zero,
    hbytes]
  rfl

/-- **Every file starts with its header and its table.** -/
lemma finish_front (json : SerdeJson N)
    (iter : HashMap UInt64 String → List (Sigma fun _ : UInt64 => String)) (w : BqntWriter)
    (metadataJson : String) :
    ∃ rest, w.finish json iter metadataJson =
      w.front (alignUp w.currentOffset 8) (UInt64.ofNat
        (utf8 (json.toString (w.augmentedMetadata json iter metadataJson))).length) ++ rest := by
  rw [finish, foldl_writeEntry, writeHeader_eq, ByteFile.writeAll_append,
    ByteFile.writeAll_seek_zero]
  exact ⟨_, rfl⟩

end BqntWriter

end Braidinfer.Bqnt
