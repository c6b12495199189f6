/-
`BqntFile::open` and `MmapBqnt` (`bqnt.rs`): parsing a file with every check on the way, and
looking tensors up by name.
-/
import Braidinfer.Bqnt.Writer

namespace Braidinfer.Bqnt

open Braidinfer.Lib

/-! ### Parsing -/

/-- `u32::from_le_bytes` of the four bytes at `i`. -/
def u32At (buf : List UInt8) (i : ℕ) : UInt32 := UInt32.ofNat (ofLeBytes (slice buf i 4))

/-- `u64::from_le_bytes` of the eight bytes at `i`. -/
def u64At (buf : List UInt8) (i : ℕ) : UInt64 := UInt64.ofNat (ofLeBytes (slice buf i 8))

/-- `read_exact` of `n` bytes. -/
def readExact (n : ℕ) (rest : List UInt8) : Except IoError (List UInt8 × List UInt8) :=
  if rest.length < n then .error (.unexpectedEof "failed to fill whole buffer")
  else .ok (rest.take n, rest.drop n)

/-- `checked_end`. -/
def checkedEnd (offset size : UInt64) (context : String) : Except IoError UInt64 :=
  okOr (checkedAdd offset size) s!"{context} range overflows file address space"

/-- `ranges_overlap`. -/
def rangesOverlap (startA endA startB endB : UInt64) : Bool := startA < endB && startB < endA

/-- What the header says, and the end of the reserved region. -/
structure Header where
  fileLen : UInt64
  nTensors : ℕ
  tableEnd : UInt64
  metadataOffset : UInt64
  metadataSize : UInt64
  metadataEnd : UInt64

/-- The bounds of the entry table and of the metadata. -/
def checkBounds (fileLen : UInt64) (header : List UInt8) : Except IoError Header :=
  let nTensors := (u32At header 8).toNat
  let reserved := (u32At header 12).toNat
  let reservedEntries := if reserved = 0 then 4096 else reserved
  let metadataOffset := u64At header 16
  let metadataSize := u64At header 24
  match okOr (checkedMul (UInt64.ofNat nTensors) entrySize)
      s!"tensor table size overflows for {nTensors} entries" with
  | .error e => .error e
  | .ok tableBytes =>
      match checkedEnd headerSize tableBytes "tensor table" with
      | .error e => .error e
      | .ok tableEndExact =>
          let tableEnd := tableEnd reservedEntries
          if fileLen < tableEndExact then
            .error (.invalidData
              s!"tensor table ends at {tableEndExact}, beyond file size {fileLen}")
          else
            match checkedEnd metadataOffset metadataSize "metadata" with
            | .error e => .error e
            | .ok metadataEnd =>
                if fileLen < metadataEnd then
                  .error (.invalidData
                    s!"metadata ends at {metadataEnd}, beyond file size {fileLen}")
                else if metadataSize ≠ 0 ∧ metadataOffset < tableEnd then
                  .error (.invalidData (s!"metadata offset {metadataOffset} overlaps " ++
                    s!"tensor table ending at {tableEnd}"))
                else
                  .ok { fileLen, nTensors, tableEnd, metadataOffset, metadataSize, metadataEnd }

/-- The header of a file, and the bytes behind it. -/
def readHeader (bytes : List UInt8) : Except IoError (Header × List UInt8) :=
  let fileLen := UInt64.ofNat bytes.length
  if fileLen < headerSize then
    .error (.invalidData
      s!"BQNT file too small: expected at least {headerSize} bytes, got {fileLen}")
  else
    match readExact 32 bytes with
    | .error e => .error e
    | .ok (header, rest) =>
        if u32At header 0 ≠ magic then .error (.invalidData "Not a BQNT file")
        else if u32At header 4 ≠ version then
          .error (.invalidData s!"Unsupported BQNT version {u32At header 4}")
        else
          match checkBounds fileLen header with
          | .error e => .error e
          | .ok h => .ok (h, rest)

/-- The entry in a buffer of the table, as stored. -/
def decodeEntry (buf : List UInt8) : TensorEntry :=
  { nameHash := u64At buf 0
    format := buf.getD 8 0
    outFeatures := u32At buf 12
    inFeatures := u32At buf 16
    originalNdim := u32At buf 20
    dataOffset := u64At buf 24
    dataBytes := u64At buf 32 }

/-- The checks of one entry. -/
def checkEntry (h : Header) (entries : HashMap UInt64 TensorEntry) (e : TensorEntry) :
    Except IoError Unit :=
  let name := hexLower e.nameHash
  if 16 < e.originalNdim then
    .error (.invalidData (s!"tensor {name} has implausible original_ndim {e.originalNdim} " ++
      "(>16 — likely a corrupt or misaligned entry table)"))
  else
    match codeToFormat e.format with
    | none => .error (.invalidData s!"tensor {name} has unknown format code {e.format}")
    | some format =>
        match checkedPackedSize format e.outFeatures e.inFeatures with
        | .error err => .error err
        | .ok expectedBytes =>
            if e.dataBytes ≠ expectedBytes then
              .error (.invalidData (s!"tensor {name} size mismatch: header says " ++
                s!"{e.dataBytes} bytes, expected {expectedBytes}"))
            else
              match checkedEnd e.dataOffset e.dataBytes "tensor data" with
              | .error err => .error err
              | .ok dataEnd =>
                  if h.fileLen < dataEnd then
                    .error (.invalidData
                      s!"tensor {name} ends at {dataEnd}, beyond file size {h.fileLen}")
                  else if e.dataOffset < h.tableEnd then
                    .error (.invalidData (s!"tensor {name} data offset {e.dataOffset} " ++
                      s!"overlaps tensor table ending at {h.tableEnd}"))
                  else if h.metadataSize ≠ 0 ∧
                      rangesOverlap e.dataOffset dataEnd h.metadataOffset h.metadataEnd then
                    .error (.invalidData (s!"tensor {name} data range " ++
                      s!"[{e.dataOffset}, {dataEnd}) overlaps metadata range " ++
                      s!"[{h.metadataOffset}, {h.metadataEnd})"))
                  else if e.nameHash ∈ entries then
                    .error (.invalidData (s!"duplicate tensor hash {name}; " ++
                      "hash-only lookup would be ambiguous"))
                  else .ok ()

/-- The loop over the entry table. -/
def readEntries (h : Header) : ℕ → List UInt8 → HashMap UInt64 TensorEntry →
    Except IoError (HashMap UInt64 TensorEntry)
  | 0, _, entries => .ok entries
  | n + 1, rest, entries =>
      match readExact 48 rest with
      | .error e => .error e
      | .ok (buf, rest) =>
          let e := decodeEntry buf
          match checkEntry h entries e with
          | .error err => .error err
          | .ok () => readEntries h n rest (entries.insert e.nameHash e)

/-- `BqntFile`. -/
structure BqntFile where
  entries : HashMap UInt64 TensorEntry
  nTensors : ℕ
  metadataOffset : UInt64
  metadataSize : UInt64

namespace BqntFile

/-- `BqntFile::open`. -/
def openFile (bytes : List UInt8) : Except IoError BqntFile :=
  match readHeader bytes with
  | .error e => .error e
  | .ok (h, rest) =>
      match readEntries h h.nTensors rest ∅ with
      | .error e => .error e
      | .ok entries =>
          .ok { entries, nTensors := h.nTensors, metadataOffset := h.metadataOffset,
                metadataSize := h.metadataSize }

/-- `BqntFile::get`. -/
def get (f : BqntFile) (name : String) : Option TensorEntry := f.entries.lookup (fnv1a64 name)

end BqntFile

/-! ### The mapped file -/

/-- `str::from_utf8`. -/
def fromUtf8 (bytes : List UInt8) : Option String := String.fromUTF8? ⟨bytes.toArray⟩

/-- `MmapBqnt`. -/
structure MmapBqnt where
  mmap : List UInt8
  header : BqntFile
  nameTable : Option (HashMap UInt64 String)

namespace MmapBqnt

variable {N : Type}

/-- One member of the name table; members that are not a hash and a name are skipped. -/
def insertName (m : HashMap UInt64 String) (member : String × Json N) : HashMap UInt64 String :=
  match parseHexKey member.1, member.2.asStr with
  | some h, some n => m.insert h n
  | _, _ => m

/-- The name table of a file, if its metadata has one. -/
def readNameTable (json : SerdeJson N) (mmap : List UInt8) (header : BqntFile) :
    Option (HashMap UInt64 String) :=
  let start := header.metadataOffset.toNat
  let size := header.metadataSize.toNat
  if start + size ≤ mmap.length ∧ 0 < size then do
    let s ← fromUtf8 (slice mmap start size)
    let v ← json.fromStr s
    let table ← v.get "name_table"
    let members ← table.asObject
    return members.foldl insertName ∅
  else none

/-- `MmapBqnt::open`. -/
def openMmap (json : SerdeJson N) (bytes : List UInt8) : Except IoError MmapBqnt :=
  match BqntFile.openFile bytes with
  | .error e => .error e
  | .ok header => .ok { mmap := bytes, header, nameTable := readNameTable json bytes header }

/-- `n_tensors`. -/
def nTensors (f : MmapBqnt) : ℕ := f.header.nTensors

/-- `tensor_names`. -/
def tensorNames (f : MmapBqnt) : List String :=
  (f.nameTable.map fun t => t.entries.map Sigma.snd).getD []

/-- `entry`. -/
def entry (f : MmapBqnt) (name : String) : Option TensorEntry := f.header.get name

/-- The bytes of an entry, if they lie in the file. -/
def entryData (f : MmapBqnt) (e : TensorEntry) : Option (List UInt8) :=
  if e.dataOffset.toNat + e.dataBytes.toNat ≤ f.mmap.length then
    some (slice f.mmap e.dataOffset.toNat e.dataBytes.toNat)
  else none

/-- `tensor_data`: a name that the name table has otherwise is refused. -/
def tensorData (f : MmapBqnt) (name : String) : Option (List UInt8) :=
  match f.header.get name with
  | none => none
  | some e =>
      match f.nameTable.bind fun t => t.lookup (fnv1a64 name) with
      | some stored => if stored ≠ name then none else f.entryData e
      | none => f.entryData e

/-- `iter_tensors`. -/
def iterTensors (f : MmapBqnt) : List (UInt64 × TensorEntry × List UInt8) :=
  f.header.entries.entries.filterMap fun p => (f.entryData p.2).map fun data => (p.1, p.2, data)

/-- `metadata`. -/
def metadata (f : MmapBqnt) : Except IoError String :=
  let start := f.header.metadataOffset.toNat
  let size := f.header.metadataSize.toNat
  if start + size ≤ f.mmap.length then
    match fromUtf8 (slice f.mmap start size) with
    | some s => .ok s
    | none => .error .invalidUtf8
  else .error (.unexpectedEof "Metadata out of bounds")

end MmapBqnt

end Braidinfer.Bqnt
