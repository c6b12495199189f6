/-
The BTRC trace file: `TraceSink` in `tracer.rs` writes it, `read_trace` in
`scripts/compare_traces.py` reads it.

A file is a header, a series of records, and the number of records, which the reader takes for the
length of a name.  It stops there because no bytes follow: a name of that length is cut short, or,
for the length 0, the number of elements is.

* `TraceSink`, `writeTrace`: the writer;
* `readRecord`, `readTrace`: the reader, with `f.read` giving fewer bytes at the end of the file;
* `quiet`: what becomes of a float, which the reader holds as a double;
* `record_framed`: the reader's loop against the writer's records;
* `readTrace_writeTrace`: **the reader gives back what was written, and on any beginning of the
  file the records that are complete there, with signaling NaNs made quiet**.
-/
import Braidinfer.Bqnt.RoundTrip
import Braidinfer.Lib.Frames

namespace Braidinfer.Trace

open Braidinfer.Lib Braidinfer.Bqnt

/-- A checkpoint: its name, and the bits of its floats. -/
abbrev Record := String × List UInt32

/-! ### The writer -/

/-- `TraceSink`: what was written to the file, and the number of checkpoints. -/
structure TraceSink where
  written : List UInt8
  count : UInt32

/-- `b"BTRC"` -/
def magic : List UInt8 := [0x42, 0x54, 0x52, 0x43]

/-- `to_le_bytes` of a `u32`. -/
def u32Bytes (w : UInt32) : List UInt8 := leBytes 4 w.toNat

namespace TraceSink

/-- `TraceSink::open` -/
def «open» : TraceSink := { written := magic ++ u32Bytes 1, count := 0 }

/-- `TraceSink::write_checkpoint` -/
def writeCheckpoint (sink : TraceSink) (name : String) (data : List UInt32) : TraceSink :=
  let nameBytes := utf8 name
  { written := sink.written ++ u32Bytes (UInt32.ofNat nameBytes.length) ++ nameBytes ++
      u32Bytes (UInt32.ofNat data.length) ++ data.flatMap u32Bytes
    count := sink.count + 1 }

/-- `TraceSink::close`: the bytes of the file. -/
def close (sink : TraceSink) : List UInt8 := sink.written ++ u32Bytes sink.count

end TraceSink

/-- The file of a list of checkpoints. -/
def writeTrace (records : List Record) : List UInt8 :=
  (records.foldl (fun sink r => sink.writeCheckpoint r.1 r.2) TraceSink.open).close

/-! ### The reader -/

/-- The exceptions of `read_trace`. -/
inductive TraceError
  | badMagic (found : List UInt8)
  /-- `struct.error`: the version is cut short -/
  | structError
  | unsupportedVersion (version : ℕ)
  | unicodeDecodeError
deriving DecidableEq, Repr

/-- The floats of some bytes, as their bits. -/
def unpackFloats : List UInt8 → List UInt32
  | b0 :: b1 :: b2 :: b3 :: rest => UInt32.ofNat (ofLeBytes [b0, b1, b2, b3]) :: unpackFloats rest
  | _ => []

/-- The bits of a NaN whose quiet bit is not set. -/
def Signaling (w : UInt32) : Prop :=
  w &&& 0x7f800000 = 0x7f800000 ∧ w &&& 0x007fffff ≠ 0 ∧ w &&& 0x00400000 = 0

instance : DecidablePred Signaling := fun _ => inferInstanceAs (Decidable (_ ∧ _ ∧ _))

/-- A float that went through a double: the conversion makes a signaling NaN quiet. -/
def quiet (w : UInt32) : UInt32 := if Signaling w then w ||| 0x00400000 else w

/-- `struct.unpack` of floats, as the bits of the doubles it gives. -/
def structUnpack (bytes : List UInt8) : List UInt32 := (unpackFloats bytes).map quiet

/-- One turn of the loop of `read_trace`: `none` is a `break`. -/
def readRecord (f : List UInt8) : Except TraceError (Option (Record × List UInt8)) :=
  let header := f.take 4
  let f := f.drop 4
  if header.length < 4 then .ok none
  else
    let nameLen := ofLeBytes header
    let nameBytes := f.take nameLen
    let f := f.drop nameLen
    if nameBytes.length < nameLen then .ok none
    else
      let numElementsBytes := f.take 4
      let f := f.drop 4
      if numElementsBytes.length < 4 then .ok none
      else
        let numElements := ofLeBytes numElementsBytes
        let dataBytes := f.take (numElements * 4)
        let f := f.drop (numElements * 4)
        if dataBytes.length < numElements * 4 then .ok none
        else
          match fromUtf8 nameBytes with
          | none => .error .unicodeDecodeError
          | some name => .ok (some ((name, structUnpack dataBytes), f))

/-- A turn that gives a record reads at least its header. -/
lemma readRecord_shrinks {f rest : List UInt8} {r : Record}
    (h : readRecord f = .ok (some (r, rest))) : rest.length < f.length := by
  simp only [readRecord] at h
  split_ifs at h with hheader hname hnum hdata
  all_goals try cases h
  split at h
  · cases h
  · cases h
    simp only [List.length_take, List.length_drop] at hheader ⊢
    omega

/-- The loop of `read_trace`. -/
def recordReader : Reader UInt8 TraceError Record := ⟨readRecord, readRecord_shrinks⟩

lemma recordReader_step : recordReader.step = readRecord := rfl

/-- `read_trace` -/
def readTrace (f : List UInt8) : Except TraceError (List Record) :=
  let found := f.take 4
  let f := f.drop 4
  if found ≠ magic then .error (.badMagic found)
  else
    let versionBytes := f.take 4
    let f := f.drop 4
    if versionBytes.length < 4 then .error .structError
    else
      let version := ofLeBytes versionBytes
      if version ≠ 1 then .error (.unsupportedVersion version)
      else recordReader.readAll f

/-! ### Records -/

/-- The bytes of a checkpoint. -/
def recordBytes (r : Record) : List UInt8 :=
  u32Bytes (UInt32.ofNat (utf8 r.1).length) ++ utf8 r.1 ++ u32Bytes (UInt32.ofNat r.2.length) ++
    r.2.flatMap u32Bytes

/-- A record whose lengths fit in the `u32`s. -/
def Small (r : Record) : Prop := (utf8 r.1).length < 2 ^ 32 ∧ r.2.length < 2 ^ 32

instance : DecidablePred Small := fun _ => inferInstanceAs (Decidable (_ ∧ _))

/-- A record as it is read. -/
def asRead (r : Record) : Record := (r.1, r.2.map quiet)

variable {sink : TraceSink} {records : List Record} {r : Record}

/-- Without signaling NaNs it is read as it was written. -/
lemma asRead_eq (h : ∀ w ∈ r.2, ¬ Signaling w) : asRead r = r := by
  have hquiet : r.2.map quiet = r.2.map id := List.map_congr_left fun w hw => if_neg (h w hw)
  rw [asRead, hquiet, List.map_id]

@[simp] lemma length_u32Bytes (w : UInt32) : (u32Bytes w).length = 4 := length_leBytes 4 _

lemma ofLeBytes_u32Bytes (w : UInt32) : ofLeBytes (u32Bytes w) = w.toNat :=
  ofLeBytes_leBytes_of_lt w.toNat_lt

lemma ofLeBytes_length {n : ℕ} (h : n < 2 ^ 32) : ofLeBytes (u32Bytes (UInt32.ofNat n)) = n := by
  rw [ofLeBytes_u32Bytes, UInt32.toNat_ofNat_of_lt' h]

/-- The writer puts down one record after the other. -/
lemma written_foldl : (records.foldl (fun sink r => sink.writeCheckpoint r.1 r.2) sink).written =
    sink.written ++ records.flatMap recordBytes := by
  induction records generalizing sink with
  | nil => exact (List.append_nil _).symm
  | cons r records ih =>
      rw [List.foldl_cons, ih, List.flatMap_cons, TraceSink.writeCheckpoint, recordBytes]
      simp only [List.append_assoc]

/-- A file: the header, the records, and a number. -/
lemma writeTrace_eq (records : List Record) : ∃ count : UInt32,
    writeTrace records =
      magic ++ u32Bytes 1 ++ (records.flatMap recordBytes ++ u32Bytes count) := by
  refine ⟨(records.foldl (fun sink r => sink.writeCheckpoint r.1 r.2) TraceSink.open).count, ?_⟩
  rw [writeTrace, TraceSink.close, written_foldl, TraceSink.open, List.append_assoc]

lemma length_flatMap_u32Bytes (data : List UInt32) :
    (data.flatMap u32Bytes).length = data.length * 4 := by
  induction data with
  | nil => rfl
  | cons w data ih =>
      rw [List.flatMap_cons, List.length_append, ih, length_u32Bytes, List.length_cons]
      omega

/-- Floats come back as they were packed. -/
lemma unpackFloats_flatMap (data : List UInt32) : unpackFloats (data.flatMap u32Bytes) = data := by
  induction data with
  | nil => rfl
  | cons w data ih =>
      have hw : UInt32.ofNat (ofLeBytes (u32Bytes w)) = w := by
        rw [ofLeBytes_u32Bytes, UInt32.ofNat_toNat]
      rw [List.flatMap_cons]
      change UInt32.ofNat (ofLeBytes (u32Bytes w)) :: unpackFloats (data.flatMap u32Bytes) = _
      rw [hw, ih]

/-! ### The loop against the records -/

/-- The end of the file in the header. -/
lemma readRecord_header {f : List UInt8} (h : f.length < 4) : readRecord f = .ok none := by
  have hheader : (f.take 4).length < 4 := lt_of_le_of_lt (List.length_take_le' _ _) h
  rw [readRecord]
  simp only [if_pos hheader]

/-- What is behind a header of length `n`. -/
lemma take_drop_u32 (w : UInt32) (f : List UInt8) :
    (u32Bytes w ++ f).take 4 = u32Bytes w ∧ (u32Bytes w ++ f).drop 4 = f :=
  ⟨List.take_left' (length_u32Bytes w), List.drop_left' (length_u32Bytes w)⟩

/-- The end of the file in the name. -/
lemma readRecord_name {n : ℕ} {f : List UInt8} (hn : n < 2 ^ 32) (h : f.length < n) :
    readRecord (u32Bytes (UInt32.ofNat n) ++ f) = .ok none := by
  obtain ⟨htake, hdrop⟩ := take_drop_u32 (UInt32.ofNat n) f
  have hname : (f.take n).length < n := lt_of_le_of_lt (List.length_take_le' _ _) h
  rw [readRecord]
  simp only [htake, hdrop, length_u32Bytes, ofLeBytes_length hn, lt_irrefl, if_false, if_pos hname]

/-- The end of the file in the number of elements. -/
lemma readRecord_num {name : List UInt8} {f : List UInt8} (hn : name.length < 2 ^ 32)
    (h : f.length < 4) :
    readRecord (u32Bytes (UInt32.ofNat name.length) ++ (name ++ f)) = .ok none := by
  obtain ⟨htake, hdrop⟩ := take_drop_u32 (UInt32.ofNat name.length) (name ++ f)
  have hnum : (f.take 4).length < 4 := lt_of_le_of_lt (List.length_take_le' _ _) h
  rw [readRecord]
  simp only [htake, hdrop, length_u32Bytes, ofLeBytes_length hn, List.take_left, List.drop_left,
    lt_irrefl, if_false, if_pos hnum]

/-- The end of the file in the data. -/
lemma readRecord_data {name : List UInt8} {n : ℕ} {f : List UInt8} (hname : name.length < 2 ^ 32)
    (hn : n < 2 ^ 32) (h : f.length < n * 4) :
    readRecord (u32Bytes (UInt32.ofNat name.length) ++ (name ++ (u32Bytes (UInt32.ofNat n) ++ f))) =
      .ok none := by
  obtain ⟨htake, hdrop⟩ := take_drop_u32 (UInt32.ofNat name.length)
    (name ++ (u32Bytes (UInt32.ofNat n) ++ f))
  obtain ⟨htake', hdrop'⟩ := take_drop_u32 (UInt32.ofNat n) f
  have hdata : (f.take (n * 4)).length < n * 4 := 
    lt_of_le_of_lt (List.length_take_le' _ _) h
  rw [readRecord]
  simp only [htake, hdrop, length_u32Bytes, ofLeBytes_length hname, List.take_left, List.drop_left,
    htake', hdrop', ofLeBytes_length hn, lt_irrefl, if_false, if_pos hdata]

/-- A record is read back. -/
lemma readRecord_recordBytes (h : Small r) (rest : List UInt8) :
    readRecord (recordBytes r ++ rest) = .ok (some (asRead r, rest)) := by
  obtain ⟨name, data⟩ := r
  obtain ⟨hname, hdata⟩ := h
  obtain ⟨htake, hdrop⟩ := take_drop_u32 (UInt32.ofNat (utf8 name).length)
    (utf8 name ++ (u32Bytes (UInt32.ofNat data.length) ++ (data.flatMap u32Bytes ++ rest)))
  obtain ⟨htake', hdrop'⟩ := take_drop_u32 (UInt32.ofNat data.length)
    (data.flatMap u32Bytes ++ rest)
  have hlen := length_flatMap_u32Bytes data
  have hpayload : (data.flatMap u32Bytes ++ rest).take (data.length * 4) = data.flatMap u32Bytes ∧
      (data.flatMap u32Bytes ++ rest).drop (data.length * 4) = rest :=
    ⟨List.take_left' hlen, List.drop_left' hlen⟩
  simp only [recordBytes, List.append_assoc]
  rw [readRecord]
  simp only [htake, hdrop, length_u32Bytes, ofLeBytes_length hname, List.take_left, List.drop_left,
    htake', hdrop', ofLeBytes_length hdata, lt_irrefl, if_false, hpayload.1, hpayload.2, hlen,
    fromUtf8_utf8, structUnpack, unpackFloats_flatMap, asRead]

/-- A beginning that holds all of the first part. -/
lemma take_append_of_le {a b : List UInt8} {n : ℕ} (h : a.length ≤ n) :
    (a ++ b).take n = a ++ b.take (n - a.length) := by
  rw [List.take_append, List.take_of_length_le h]

/-- **The reader's loop against the writer's records.**  The cases of `cut` are the four parts of a
record. -/
lemma record_framed (count : UInt32) :
    Framed recordReader recordBytes asRead Small (u32Bytes count) where
  complete r hr rest := by
    rw [recordReader_step]
    exact readRecord_recordBytes hr rest
  cut r hr n hn := by
    obtain ⟨name, data⟩ := r
    obtain ⟨hname, hdata⟩ := hr
    rw [recordReader_step]
    simp only [recordBytes, List.append_assoc, List.length_append, length_u32Bytes,
      length_flatMap_u32Bytes] at hn ⊢
    by_cases hheader : n < 4
    · exact readRecord_header (lt_of_le_of_lt (List.length_take_le _ _) hheader)
    rw [take_append_of_le (by rw [length_u32Bytes]; omega), length_u32Bytes]
    by_cases hcut : n - 4 < (utf8 name).length
    · exact readRecord_name hname (lt_of_le_of_lt (List.length_take_le _ _) hcut)
    rw [take_append_of_le (by omega)]
    by_cases hnum : n - 4 - (utf8 name).length < 4
    · exact readRecord_num hname (lt_of_le_of_lt (List.length_take_le _ _) hnum)
    rw [take_append_of_le (by rw [length_u32Bytes]; omega), length_u32Bytes]
    refine readRecord_data hname hdata (lt_of_le_of_lt (List.length_take_le _ _) ?_)
    omega
  stop n := by
    rw [recordReader_step]
    by_cases hheader : n < 4
    · exact readRecord_header (lt_of_le_of_lt (List.length_take_le _ _) hheader)
    rw [List.take_of_length_le (by rw [length_u32Bytes]; omega)]
    -- the number of records is taken for the length of a name
    have hcount : u32Bytes count = u32Bytes (UInt32.ofNat count.toNat) ++ [] := by
      rw [UInt32.ofNat_toNat, List.append_nil]
    rw [hcount]
    by_cases hzero : count.toNat = 0
    · have hname : ([] : List UInt8).length < 2 ^ 32 := Nat.two_pow_pos 32
      have hend : ([] : List UInt8).length < 4 := Nat.succ_pos 3
      have hempty := readRecord_num hname hend
      rw [List.nil_append, List.length_nil] at hempty
      rwa [hzero]
    · exact readRecord_name count.toNat_lt (Nat.pos_of_ne_zero hzero)

/-- **A trace file read back.**  For every list of records whose lengths fit in a `u32`, the reader
gives the list back from the file the writer makes of it, each signaling NaN made quiet, and from
any beginning of the file that holds the header it gives the records that are complete there: the
first `j` of them, where the first `i` are among these exactly if they end within the beginning.
Without signaling NaNs the records are read as they were written. -/
theorem readTrace_writeTrace (records : List Record) (hsmall : ∀ r ∈ records, Small r) :
    readTrace (writeTrace records) = .ok (records.map asRead) ∧
      (∀ n, 8 ≤ n → ∃ j ≤ records.length,
        readTrace ((writeTrace records).take n) = .ok ((records.take j).map asRead) ∧
          ∀ i ≤ records.length, i ≤ j ↔ 8 + ((records.take i).flatMap recordBytes).length ≤ n) ∧
      ((∀ r ∈ records, ∀ w ∈ r.2, ¬ Signaling w) → ∀ j, (records.take j).map asRead =
        records.take j) := by
  obtain ⟨count, hfile⟩ := writeTrace_eq records
  have hheader : ∀ f, readTrace (magic ++ u32Bytes 1 ++ f) = recordReader.readAll f := by
    intro f
    have hmagic : (magic ++ u32Bytes 1 ++ f).take 4 = magic := rfl
    have hrest : (magic ++ u32Bytes 1 ++ f).drop 4 = u32Bytes 1 ++ f := rfl
    have hversion : ofLeBytes (u32Bytes 1) = 1 := rfl
    rw [readTrace]
    simp only [hmagic, hrest, (take_drop_u32 1 f).1, (take_drop_u32 1 f).2, length_u32Bytes,
      hversion, ne_eq, not_true, lt_irrefl, if_false]
  refine ⟨?_, fun n hn => ⟨completeIn recordBytes records (n - 8), completeIn_le, ?_, ?_⟩, ?_⟩
  · rw [hfile, hheader, (record_framed count).readAll_stream hsmall]
  · have hlen : (magic ++ u32Bytes 1).length = 8 := rfl
    rw [hfile, take_append_of_le (by omega), hlen, hheader,
      (record_framed count).readAll_take hsmall]
  · intro i hi
    rw [le_completeIn hi]
    omega
  · intro hquiet j
    have hread : (records.take j).map asRead = (records.take j).map id :=
      List.map_congr_left fun r hr => asRead_eq (hquiet r (List.mem_of_mem_take hr))
    rw [hread, List.map_id]

/-- Two records, one of them with a signaling NaN, the other without a name and without elements,
and the first record alone where the file is cut in the second. -/
theorem readTrace_writeTrace_two :
    readTrace (writeTrace [("embed", [0x3f800000, 0xff800001]), ("", [])]) =
        .ok [("embed", [0x3f800000, 0xffc00001]), ("", [])] ∧
      readTrace ((writeTrace [("embed", [0x3f800000]), ("", [])]).take 29) =
        .ok [("embed", [0x3f800000])] := by
  constructor
  · have hfull := (readTrace_writeTrace [("embed", [0x3f800000, 0xff800001]), ("", [])]
      (by decide +kernel)).1
    have hread : [(("embed", [0x3f800000, 0xff800001]) : Record), ("", [])].map asRead =
      [("embed", [0x3f800000, 0xffc00001]), ("", [])] := by decide +kernel
    rw [hfull, hread]
  · obtain ⟨-, hcut, hquiet⟩ := readTrace_writeTrace [("embed", [0x3f800000]), ("", [])]
      (by decide +kernel)
    obtain ⟨j, hj, hread, hiff⟩ := hcut 29 (by decide)
    have h1 : 1 ≤ j := (hiff 1 (by decide)).2 (by decide +kernel)
    have h2 : ¬ 2 ≤ j := fun h => absurd ((hiff 2 (by decide)).1 h) (by decide +kernel)
    obtain rfl : j = 1 := by omega
    rw [hread, hquiet ?_]
    · rfl
    · intro r hr w hw
      rcases List.mem_cons.mp hr with rfl | hr
      · rw [List.mem_singleton.mp hw]
        decide
      · rw [List.mem_singleton.mp hr] at hw
        exact absurd hw List.not_mem_nil

/-- A signaling NaN is not read as it was written. -/
theorem readTrace_writeTrace_signaling : ¬ ∀ records : List Record, (∀ r ∈ records, Small r) →
    readTrace (writeTrace records) = .ok records := by
  intro hall
  have hback := hall [("embed", [0xff800001])] (by decide +kernel)
  have hread : recordReader.readAll ([("embed", [0xff800001])].flatMap recordBytes ++ u32Bytes 1) =
      .ok ([("embed", [0xff800001])].map asRead) :=
    (record_framed 1).readAll_stream (by decide +kernel)
  have hfile : readTrace (writeTrace [("embed", [0xff800001])]) = recordReader.readAll
      ([("embed", [0xff800001])].flatMap recordBytes ++ u32Bytes 1) := rfl
  rw [hfile, hread] at hback
  exact absurd (Except.ok.inj hback) (by decide +kernel)

end Braidinfer.Trace
