/-
The tensors that `bqnt_quantize.rs` reads from the shards of a model directory, one by one.

Every shard is read alone: an fp8 tensor gets its scale from the shard that it is in.

* `readScaleTensor`, `fp8Matrix`, `bf16Matrix`: the conversion of a tensor to bf16;
* `EntryFaithful`, `Faithful`: what its matrix should be, by all the shards;
* `ReadsRight`: the tensors and places for which it is;
* `Source.faithful_iff`: **a tensor is read faithfully exactly if it is of this kind**.
-/
import Braidinfer.Lib.Slots
import Braidinfer.Loader.Weights
import Braidinfer.Quant.Format
import Braidinfer.Quant.SmallFloats

namespace Braidinfer.Quant

open Braidinfer.Lib
open Braidinfer.Loader (Dtype StTensor Shard)
open Braidinfer.Moe (ModelError)
open BinaryFormat (binary32 binary16 bfloat16 e4m3 e5m2)

/-! ### The shape of a matrix -/

/-- A product of `usize`. -/
def usize (n : ℕ) : ℕ := n % 2 ^ 64

/-- `out_dim` -/
def outDim (shape : List ℕ) : ℕ :=
  if shape.length = 3 then usize (shape.getD 0 0 * shape.getD 1 0) else shape.getD 0 0

/-- `in_dim` -/
def inDim (shape : List ℕ) : ℕ :=
  if shape.length = 3 then shape.getD 2 0 else usize (shape.drop 1).prod

/-- `n_elements` -/
def nElements (shape : List ℕ) : ℕ := usize (outDim shape * inDim shape)

/-! ### Scales -/

/-- `ScaleTensor` -/
inductive ScaleTensor
  | scalar (s : ℕ)
  | perChannel (scales : List ℕ)

/-- The pattern of 16 bits at byte `off`. -/
def u16Of (data : List UInt8) (off : ℕ) : ℕ := u16At (data.getD · 0) off

/-- `read_f32` -/
def readF32 (st : StTensor) (i : ℕ) : ℕ :=
  match st.dtype with
  | .f32 => (Bqnt.u32At st.data (i * 4)).toNat
  | .bf16 => bf16ToF32 (u16Of st.data (i * 2))
  | _ => natF32 1

/-- `elem_size` -/
def elemSize : Dtype → Option ℕ
  | .f32 => some 4
  | .bf16 => some 2
  | _ => none

/-- `read_scale_tensor` -/
def readScaleTensor (tensors : Shard) (key : String) (outDim : ℕ) : Option ScaleTensor := do
  let st ← tensors.lookup key
  let size ← elemSize st.dtype
  let nElems := st.data.length / size
  if nElems = 1 then some (.scalar (readF32 st 0))
  else if nElems = outDim then some (.perChannel ((List.range outDim).map (readF32 st)))
  else if 0 < nElems then some (.scalar (readF32 st 0))
  else none

/-- `rsplit_once('.')`, the part in front; the name if it has no dot. -/
def tensorPrefix (name : String) : String :=
  if '.' ∈ name.toList then .ofList (name.toList.reverse.dropWhile (· ≠ '.')).tail.reverse
  else name

/-- `qscale_weight` -/
def qscaleKey (name : String) : String := tensorPrefix name ++ ".qscale_weight"

/-- `weight_scale_inv` -/
def scaleInvKey (name : String) : String := tensorPrefix name ++ ".weight_scale_inv"

/-! ### Conversion -/

/-- `chunks` -/
def chunks {α : Type} (k : ℕ) (l : List α) : List (List α) :=
  (List.range ((l.length + k - 1) / k)).map fun r => (l.drop (r * k)).take k

section Convert

/- The pattern of a product that is no number is left open. -/
variable (nan : ℕ → ℕ → ℕ)

/-- The conversion of an fp8 tensor; `chunks` panics on rows of no element. -/
def fp8Matrix (decode : ℕ → ℕ) (safetensors : Shard) (name : String) (t : StTensor) :
    Except ModelError (List ℕ) :=
  let fp8Bytes := (t.data.take (nElements t.shape)).map UInt8.toNat
  match (readScaleTensor safetensors (qscaleKey name) (outDim t.shape)).or
      (readScaleTensor safetensors (scaleInvKey name) (outDim t.shape)) with
  | none => .ok (fp8Bytes.map fun b => f32ToBf16 (decode b))
  | some (.scalar s) => .ok (fp8Bytes.map fun b => f32ToBf16 (binary32.mul nan (decode b) s))
  | some (.perChannel scales) =>
      if inDim t.shape = 0 then .error .panicked
      else .ok ((chunks (inDim t.shape) fp8Bytes).zipIdx.flatMap fun p =>
        p.1.map fun b => f32ToBf16 (binary32.mul nan (decode b) (scales.getD p.2 0)))

/-- `bf16_slice`: the matrix that is handed to the quantizer. -/
def bf16Matrix (safetensors : Shard) (name : String) (t : StTensor) :
    Except ModelError (Option (List ℕ)) :=
  match t.dtype with
  | .bf16 => .ok (some ((List.range (nElements t.shape)).map fun i => u16Of t.data (i * 2)))
  | .f16 =>
      .ok (some ((List.range (nElements t.shape)).map fun i =>
        f16ToBf16 nan (u16Of t.data (i * 2))))
  | .f8E4M3 => (fp8Matrix nan (fp8E4M3ToF32 nan) safetensors name t).map some
  | .f8E5M2 => (fp8Matrix nan (fp8E5M2ToF32 nan) safetensors name t).map some
  | _ => .ok none

end Convert

/-! ### What the matrix should be -/

/-- The format of the elements of a tensor, if it is one that is converted. -/
def elementFormat : Dtype → Option BinaryFormat
  | .bf16 => some bfloat16
  | .f16 => some binary16
  | .f8E4M3 => some e4m3
  | .f8E5M2 => some e5m2
  | _ => none

/-- The tensor is fp8. -/
def IsFp8 (t : StTensor) : Prop := t.dtype = .f8E4M3 ∨ t.dtype = .f8E5M2

/-- The pattern of element `i`. -/
def element (t : StTensor) (i : ℕ) : ℕ :=
  match t.dtype with
  | .bf16 | .f16 => u16Of t.data (i * 2)
  | _ => (t.data.getD i 0).toNat

/-- The pattern is that of a number; E4M3 has no infinity. -/
def FiniteElement (dtype : Dtype) (g : BinaryFormat) (x : ℕ) : Prop :=
  if dtype = .f8E4M3 then g.low x ≠ 0x7F else g.low x < g.inf

/-- The scale tensors of an fp8 tensor, in whatever shard. -/
def scalesOf (dir : List Shard) (name : String) : List StTensor :=
  ((dir.flatMap fun shard => shard.entries).filter fun e =>
    e.1 = qscaleKey name || e.1 = scaleInvKey name).map fun e => e.2

/-- The scale of row `r`, from a tensor of one element or of one for each row. -/
def scaleAt (s : StTensor) (r : ℕ) : ℕ := if s.shape.prod = 1 then readF32 s 0 else readF32 s r

/-- What is read: the elements are numbers, and an fp8 tensor has at most one scale tensor in the
directory, of one element or of one for each row.  A tensor is in memory. -/
structure Source (dir : List Shard) (name : String) (t : StTensor) (g : BinaryFormat) : Prop where
  format : elementFormat t.dtype = some g
  finite : ∀ i < t.shape.prod, FiniteElement t.dtype g (element t i)
  memory : t.data.length < 2 ^ 63
  scale : IsFp8 t → scalesOf dir name = [] ∨ ∃ s, scalesOf dir name = [s] ∧
    (s.dtype = .f32 ∨ s.dtype = .bf16) ∧
      (s.shape.prod = 1 ∨ s.shape.prod = outDim t.shape)

/-- The entry at row `r` for the element with pattern `x`: the nearest bf16, of an fp8 element times
its scale. -/
def EntryFaithful (nan : ℕ → ℕ → ℕ) (dir : List Shard) (name : String) (t : StTensor)
    (g : BinaryFormat) (r x y : ℕ) : Prop :=
  if t.dtype = .bf16 ∨ t.dtype = .f16 then
    ∃ c, y = bfloat16.pack (g.isNeg x) c ∧ bfloat16.Nearest (g.magnitude (g.low x)) c
  else
    NarrowsTo (binary32.mul nan (g.convert binary32 x)
      (match scalesOf dir name with
        | [] => natF32 1
        | s :: _ => scaleAt s r)) y

/-- The matrix of a tensor is faithful. -/
def Faithful (nan : ℕ → ℕ → ℕ) (dir : List Shard) (shard : Shard) (name : String) (t : StTensor)
    (g : BinaryFormat) : Prop :=
  ∃ bf16Slice, bf16Matrix nan shard name t = .ok (some bf16Slice) ∧
    bf16Slice.length = outDim t.shape * inDim t.shape ∧
    ∀ r < outDim t.shape, ∀ c < inDim t.shape,
      EntryFaithful nan dir name t g r (element t (r * inDim t.shape + c))
        (bf16Slice.getD (r * inDim t.shape + c) 0)

/-- The tensors for which it is: no subnormal number of `f16`; an fp8 tensor with its scale in its
own shard (with an element in its rows, if there is a scale for each), or else one that its scale
does not change. -/
structure ReadsRight (nan : ℕ → ℕ → ℕ) (dir : List Shard) (shard : Shard) (name : String)
    (t : StTensor) (g : BinaryFormat) : Prop where
  subnormal : t.dtype = .f16 → ∀ i < t.shape.prod, 0 < g.low (element t i) →
    2 ^ 10 ≤ g.low (element t i)
  own : IsFp8 t → ∀ s ∈ scalesOf [shard] name, s.shape.prod = 1 ∨ inDim t.shape ≠ 0
  other : IsFp8 t → scalesOf [shard] name = [] → ∀ s ∈ scalesOf dir name,
    ∀ r < outDim t.shape, ∀ c < inDim t.shape,
      NarrowsTo (binary32.mul nan (g.convert binary32 (element t (r * inDim t.shape + c)))
        (scaleAt s r)) (g.convert bfloat16 (element t (r * inDim t.shape + c)))

/-! ### Shapes and elements -/

section Source

variable {dir : List Shard} {shard : Shard} {name : String} {t s : StTensor} {g : BinaryFormat}

lemma usize_of_le {n m : ℕ} (hle : n ≤ m) (hm : m < 2 ^ 64) : usize n = n :=
  Nat.mod_eq_of_lt (hle.trans_lt hm)

/-- The matrix has the elements of the tensor. -/
lemma outDim_mul_inDim {shape : List ℕ} (hne : shape ≠ []) (hprod : shape.prod < 2 ^ 64) :
    outDim shape * inDim shape = shape.prod := by
  obtain ⟨a, rest, rfl⟩ := List.exists_cons_of_ne_nil hne
  rw [outDim, inDim]
  split_ifs with hlen
  · obtain ⟨b, c, rfl⟩ := List.length_eq_two.mp (Nat.succ.inj hlen)
    rw [List.prod_cons, List.prod_cons, List.prod_singleton, ← Nat.mul_assoc] at hprod ⊢
    change usize (a * b) * c = a * b * c
    rcases Nat.eq_zero_or_pos c with rfl | hc
    · rfl
    · rw [usize_of_le (Nat.le_mul_of_pos_right _ hc) hprod]
  · rw [List.prod_cons] at hprod ⊢
    change a * usize rest.prod = a * rest.prod
    rcases Nat.eq_zero_or_pos a with rfl | ha
    · rw [Nat.zero_mul, Nat.zero_mul]
    · rw [usize_of_le (Nat.le_mul_of_pos_left _ ha) hprod]

lemma Source.dtype (h : Source dir name t g) : (t.dtype = .bf16 ∧ g = bfloat16) ∨
    (t.dtype = .f16 ∧ g = binary16) ∨ (t.dtype = .f8E4M3 ∧ g = e4m3) ∨
      (t.dtype = .f8E5M2 ∧ g = e5m2) := by
  have hformat := h.format
  cases hd : t.dtype <;> rw [hd] at hformat <;> simp_all [elementFormat]

lemma Source.prod_lt (h : Source dir name t g) : t.shape.prod < 2 ^ 64 := by
  have hsize := t.size
  have hmemory := h.memory
  rcases h.dtype with ⟨hd, -⟩ | ⟨hd, -⟩ | ⟨hd, -⟩ | ⟨hd, -⟩ <;>
    rw [hd] at hsize <;> simp only [Dtype.bitsize] at hsize <;> omega

lemma Source.dims (h : Source dir name t g) (hne : t.shape ≠ []) :
    outDim t.shape * inDim t.shape = t.shape.prod ∧ nElements t.shape = t.shape.prod := by
  have hprod := outDim_mul_inDim hne h.prod_lt
  exact ⟨hprod, by rw [nElements, hprod, usize_of_le le_rfl h.prod_lt]⟩

lemma length_of_fp8 (hfp8 : IsFp8 t) : t.data.length = t.shape.prod := by
  have hsize := t.size
  rcases hfp8 with hd | hd <;> rw [hd] at hsize <;> exact Nat.mul_right_cancel (by decide) hsize

lemma element_of_fp8 (hfp8 : IsFp8 t) (i : ℕ) : element t i = (t.data.getD i 0).toNat := by
  rw [element]
  rcases hfp8 with hd | hd <;> rw [hd]

/-! ### Finding the scale -/

lemma mem_scalesOf : s ∈ scalesOf dir name ↔ ∃ shard ∈ dir, ∃ key,
    (key = qscaleKey name ∨ key = scaleInvKey name) ∧ shard.lookup key = some s := by
  simp only [scalesOf, List.mem_map, List.mem_filter, List.mem_flatMap, Bool.or_eq_true,
    decide_eq_true_eq]
  constructor
  · rintro ⟨⟨key, s⟩, ⟨⟨shard, hshard, hmem⟩, hkey⟩, rfl⟩
    exact ⟨shard, hshard, key, hkey, AList.mem_lookup_iff.mpr hmem⟩
  · rintro ⟨shard, hshard, key, hkey, hlookup⟩
    exact ⟨⟨key, s⟩, ⟨⟨shard, hshard, AList.mem_lookup_iff.mp hlookup⟩, hkey⟩, rfl⟩

lemma scalesOf_singleton_sublist (hshard : shard ∈ dir) :
    (scalesOf [shard] name).Sublist (scalesOf dir name) := by
  have h : ([shard].flatMap fun shard => shard.entries).Sublist
      (dir.flatMap fun shard => shard.entries) :=
    (List.singleton_sublist.mpr hshard).flatMap _
  exact (h.filter _).map _

/-- A shard holds the scale of the directory, or none. -/
lemma scalesOf_singleton (hshard : shard ∈ dir) (hs : scalesOf dir name = [s]) :
    scalesOf [shard] name = [] ∨ scalesOf [shard] name = [s] := by
  have h : (scalesOf [shard] name).Sublist (scalesOf dir name) :=
    scalesOf_singleton_sublist hshard
  rw [hs] at h
  rcases List.sublist_cons_iff.mp h with hnil | ⟨l, hl, hnil⟩
  · exact .inl (List.sublist_nil.mp hnil)
  · rw [List.sublist_nil.mp hnil] at hl
    exact .inr hl

/-- What is read of a scale tensor of one element or of `n`. -/
def scaleTensor (s : StTensor) (n : ℕ) : ScaleTensor :=
  if s.shape.prod = 1 then .scalar (readF32 s 0)
  else .perChannel ((List.range n).map (readF32 s))

lemma readScaleTensor_eq {key : String} {n : ℕ} (hlookup : shard.lookup key = some s)
    (hdtype : s.dtype = .f32 ∨ s.dtype = .bf16) (hcount : s.shape.prod = 1 ∨ s.shape.prod = n) :
    readScaleTensor shard key n = some (scaleTensor s n) := by
  have hsize := s.size
  obtain ⟨size, helem, hnum⟩ : ∃ size, elemSize s.dtype = some size ∧
      s.data.length / size = s.shape.prod := by
    rcases hdtype with hd | hd <;> rw [hd] at hsize ⊢ <;> simp only [Dtype.bitsize] at hsize
    · exact ⟨4, rfl, by omega⟩
    · exact ⟨2, rfl, by omega⟩
  rw [readScaleTensor, hlookup]
  simp only [bind, Option.bind_some, helem, hnum, scaleTensor]
  split_ifs with hone hn
  · rfl
  · rfl
  · exact absurd (hcount.resolve_left hone) hn
  · exact absurd (hcount.resolve_left hone) hn

/-- No scale in the shard. -/
lemma lookup_eq_none {key : String} (hkey : key = qscaleKey name ∨ key = scaleInvKey name)
    (hs : scalesOf [shard] name = []) : shard.lookup key = none := by
  by_contra hne
  obtain ⟨s, hlookup⟩ := Option.ne_none_iff_exists'.mp hne
  have hmem : s ∈ scalesOf [shard] name :=
    mem_scalesOf.mpr ⟨shard, List.mem_singleton_self _, key, hkey, hlookup⟩
  rw [hs] at hmem
  cases hmem

lemma readScale_none (n : ℕ) (hs : scalesOf [shard] name = []) :
    (readScaleTensor shard (qscaleKey name) n).or (readScaleTensor shard (scaleInvKey name) n) =
      none := by
  rw [readScaleTensor, readScaleTensor, lookup_eq_none (.inl rfl) hs, lookup_eq_none (.inr rfl) hs]
  rfl

/-- The scale in the shard, under one of its keys. -/
lemma readScale_eq {n : ℕ} (hs : scalesOf [shard] name = [s])
    (hdtype : s.dtype = .f32 ∨ s.dtype = .bf16) (hcount : s.shape.prod = 1 ∨ s.shape.prod = n) :
    (readScaleTensor shard (qscaleKey name) n).or (readScaleTensor shard (scaleInvKey name) n) =
      some (scaleTensor s n) := by
  -- under a key is no other
  have honly : ∀ key, key = qscaleKey name ∨ key = scaleInvKey name →
      readScaleTensor shard key n = none ∨
        readScaleTensor shard key n = some (scaleTensor s n) := by
    intro key hkey
    cases hlookup : shard.lookup key with
    | none => exact .inl (by rw [readScaleTensor, hlookup]; rfl)
    | some s' =>
        have hmem : s' ∈ scalesOf [shard] name :=
          mem_scalesOf.mpr ⟨shard, List.mem_singleton_self _, key, hkey, hlookup⟩
        rw [hs, List.mem_singleton] at hmem
        rw [hmem] at hlookup
        exact .inr (readScaleTensor_eq hlookup hdtype hcount)
  have hmem : s ∈ scalesOf [shard] name := by rw [hs]; exact List.mem_singleton_self s
  obtain ⟨shard', hshard', key, hkey, hlookup⟩ := mem_scalesOf.mp hmem
  obtain rfl := List.mem_singleton.mp hshard'
  have hread := readScaleTensor_eq hlookup hdtype hcount
  rcases hkey with rfl | rfl
  · rw [hread]
    rfl
  · rcases honly _ (.inl rfl) with h | h <;> rw [h, hread] <;> rfl

/-! ### The matrix of an fp8 tensor -/

lemma zipIdx_map_range {α : Type} (n : ℕ) (f : ℕ → α) :
    ((List.range n).map f).zipIdx = (List.range n).map fun r => (f r, r) := by
  refine List.ext_getElem? fun i => ?_
  rw [List.getElem?_zipIdx, List.getElem?_map, List.getElem?_map]
  rcases Nat.lt_or_ge i n with hi | hi
  · rw [List.getElem?_range hi]
    simp
  · rw [List.getElem?_eq_none (by rwa [List.length_range])]
    rfl

/-- The rows of a list of `n * k` elements, each with its number. -/
lemma chunks_flatMap {α β : Type} {n k : ℕ} (hk : k ≠ 0) {l : List α} (hl : l.length = n * k)
    (f : ℕ → α → β) :
    ((chunks k l).zipIdx.flatMap fun p => p.1.map (f p.2)) =
      (List.range n).flatMap fun r => ((l.drop (r * k)).take k).map (f r) := by
  have hcount : (l.length + k - 1) / k = n := by
    rw [hl, Nat.add_sub_assoc (Nat.one_le_iff_ne_zero.mpr hk), Nat.mul_comm,
      Nat.mul_add_div (Nat.pos_of_ne_zero hk), Nat.div_eq_of_lt (by omega), Nat.add_zero]
  rw [chunks, hcount, zipIdx_map_range, List.flatMap_map]

/-- An entry of such rows. -/
lemma getD_chunks {n k r c : ℕ} {l : List ℕ} (hl : l.length = n * k) (hr : r < n) (hc : c < k)
    (f : ℕ → ℕ → ℕ) :
    ((List.range n).flatMap fun r => ((l.drop (r * k)).take k).map (f r)).getD (r * k + c) 0 =
      f r (l.getD (r * k + c) 0) := by
  have hlen : ∀ e < n, (((l.drop (e * k)).take k).map (f e)).length = k := by
    intro e he
    have := Nat.mul_le_mul_right k (Nat.succ_le_of_lt he)
    rw [Nat.succ_mul] at this
    rw [List.length_map, List.length_take, List.length_drop, hl]
    omega
  have hplace := rowMajor_lt hr hc
  rw [getD_flatMap_range hlen hr hc, List.getD_eq_getElem?_getD, List.getD_eq_getElem?_getD,
    List.getElem?_map, List.getElem?_take_of_lt hc, List.getElem?_drop,
    List.getElem?_eq_getElem (by rw [hl]; exact hplace)]
  rfl

/-- The bytes that are decoded are the elements. -/
lemma Source.fp8Bytes (h : Source dir name t g) (hne : t.shape ≠ []) (hfp8 : IsFp8 t) :
    ∃ bytes : List ℕ, (t.data.take (nElements t.shape)).map UInt8.toNat = bytes ∧
      bytes.length = outDim t.shape * inDim t.shape ∧ ∀ i, bytes.getD i 0 = element t i := by
  obtain ⟨hprod, hn⟩ := h.dims hne
  have hlen := length_of_fp8 hfp8
  refine ⟨t.data.map UInt8.toNat, ?_, ?_, fun i => ?_⟩
  · rw [hn, ← hlen, List.take_length]
  · rw [List.length_map, hlen, hprod]
  · rw [element_of_fp8 hfp8, List.getD_eq_getElem?_getD, List.getD_eq_getElem?_getD,
      List.getElem?_map]
    cases t.data[i]? <;> rfl

section Fp8

variable (nan : ℕ → ℕ → ℕ) (decode : ℕ → ℕ)

/-- Without a scale in the shard. -/
lemma Source.fp8Matrix_none (h : Source dir name t g) (hne : t.shape ≠ []) (hfp8 : IsFp8 t)
    (hs : scalesOf [shard] name = []) :
    ∃ bf16Slice, fp8Matrix nan decode shard name t = .ok bf16Slice ∧
      bf16Slice.length = outDim t.shape * inDim t.shape ∧
      ∀ i < outDim t.shape * inDim t.shape,
        bf16Slice.getD i 0 = f32ToBf16 (decode (element t i)) := by
  obtain ⟨bytes, hbytes, hlen, hget⟩ := h.fp8Bytes hne hfp8
  refine ⟨bytes.map fun b => f32ToBf16 (decode b), ?_, by rw [List.length_map, hlen],
    fun i hi => ?_⟩
  · rw [fp8Matrix, readScale_none _ hs, hbytes]
  · rw [← hget, getD_map (by rwa [hlen])]

variable (hdtype : s.dtype = .f32 ∨ s.dtype = .bf16)
  (hcount : s.shape.prod = 1 ∨ s.shape.prod = outDim t.shape)

include hdtype hcount

/-- With the scale in the shard, and elements in the rows if each row has one of its own. -/
lemma Source.fp8Matrix_scaled (h : Source dir name t g) (hne : t.shape ≠ []) (hfp8 : IsFp8 t)
    (hs : scalesOf [shard] name = [s]) (hrows : s.shape.prod = 1 ∨ inDim t.shape ≠ 0) :
    ∃ bf16Slice, fp8Matrix nan decode shard name t = .ok bf16Slice ∧
      bf16Slice.length = outDim t.shape * inDim t.shape ∧
      ∀ r < outDim t.shape, ∀ c < inDim t.shape,
        bf16Slice.getD (r * inDim t.shape + c) 0 =
          f32ToBf16 (binary32.mul nan (decode (element t (r * inDim t.shape + c)))
            (scaleAt s r)) := by
  obtain ⟨bytes, hbytes, hlen, hget⟩ := h.fp8Bytes hne hfp8
  rw [fp8Matrix, readScale_eq hs hdtype hcount, hbytes, scaleTensor]
  by_cases hone : s.shape.prod = 1
  · rw [if_pos hone]
    refine ⟨_, rfl, by rw [List.length_map, hlen], fun r hr c hc => ?_⟩
    rw [← hget, scaleAt, if_pos hone, getD_map (by rw [hlen]; exact rowMajor_lt hr hc)]
  · have hin := hrows.resolve_left hone
    rw [if_neg hone]
    simp only [if_neg hin]
    rw [chunks_flatMap hin hlen fun r b => f32ToBf16 (binary32.mul nan (decode b)
      (((List.range (outDim t.shape)).map (readF32 s)).getD r 0))]
    refine ⟨_, rfl, ?_, fun r hr c hc => ?_⟩
    · rw [length_flatMap_range fun r hr => ?_]
      have := Nat.mul_le_mul_right (inDim t.shape) (Nat.succ_le_of_lt hr)
      rw [Nat.succ_mul] at this
      rw [List.length_map, List.length_take, List.length_drop, hlen]
      omega
    · rw [getD_chunks hlen hr hc fun r b => f32ToBf16 (binary32.mul nan (decode b)
        (((List.range (outDim t.shape)).map (readF32 s)).getD r 0)), hget, getD_map_range hr,
        scaleAt, if_neg hone]

/-- With a scale for each of the rows, which have no elements, it panics. -/
lemma fp8Matrix_panics (hs : scalesOf [shard] name = [s]) (hone : s.shape.prod ≠ 1)
    (hin : inDim t.shape = 0) : fp8Matrix nan decode shard name t = .error .panicked := by
  rw [fp8Matrix, readScale_eq hs hdtype hcount, scaleTensor, if_neg hone]
  simp only [if_pos hin]

end Fp8

/-! ### Faithful tensors -/

variable (nan : ℕ → ℕ → ℕ) (shard)

/-- An fp8 tensor goes through the decoder of its format, which is exact. -/
lemma Source.decode (h : Source dir name t g) (hfp8 : IsFp8 t) : ∃ decode : ℕ → ℕ,
    bf16Matrix nan shard name t = (fp8Matrix nan decode shard name t).map some ∧
      ∀ i < t.shape.prod, decode (element t i) = g.convert binary32 (element t i) := by
  rcases hfp8 with hd | hd
  · obtain rfl : g = e4m3 := by
      have := h.format
      rw [hd] at this
      exact (Option.some.inj this).symm
    refine ⟨fp8E4M3ToF32 nan, by rw [bf16Matrix, hd], fun i hi => fp8E4M3ToF32_eq ?_⟩
    have := h.finite i hi
    rwa [FiniteElement, if_pos hd] at this
  · obtain rfl : g = e5m2 := by
      have := h.format
      rw [hd] at this
      exact (Option.some.inj this).symm
    refine ⟨fp8E5M2ToF32 nan, by rw [bf16Matrix, hd], fun i hi => fp8E5M2ToF32_eq ?_⟩
    have := h.finite i hi
    rwa [FiniteElement, if_neg (by rw [hd]; decide)] at this

variable {shard}

/-- The elements of an fp8 tensor are numbers of `f32` and of bf16. -/
lemma Source.representable (h : Source dir name t g) (hfp8 : IsFp8 t) (x : ℕ) :
    binary32.Representable (g.magnitude (g.low x)) ∧
      bfloat16.Representable (g.magnitude (g.low x)) := by
  have hlow : x % 2 ^ 7 < 2 ^ 7 := Nat.mod_lt x (by decide)
  rcases h.dtype with ⟨hd, -⟩ | ⟨hd, -⟩ | ⟨-, rfl⟩ | ⟨-, rfl⟩
  · rcases hfp8 with h | h <;> rw [h] at hd <;> cases hd
  · rcases hfp8 with h | h <;> rw [h] at hd <;> cases hd
  · exact (representable_small hlow).1
  · exact (representable_small hlow).2

lemma not_sixteen (hfp8 : IsFp8 t) : ¬(t.dtype = .bf16 ∨ t.dtype = .f16) := by
  rcases hfp8 with h | h <;> rw [h] <;> decide

/-- One is the scale that changes nothing. -/
lemma Source.mul_one (h : Source dir name t g) (hfp8 : IsFp8 t) (x : ℕ) :
    binary32.mul nan (g.convert binary32 x) (natF32 1) = g.convert binary32 x := by
  have hr := (h.representable hfp8 x).1
  have hx := BinaryFormat.convert_isNumber hr
  have hone : ∀ m : ℚ, m * (1 : ℕ) = m := fun m => by rw [Nat.cast_one, Rat.mul_one]
  have hprod : binary32.IsNumber (binary32.mul nan (g.convert binary32 x) (natF32 1))
      (g.isNeg x ^^ false) (g.magnitude (g.low x) * (1 : ℕ)) :=
    hx.mul (natF32_isNumber (by decide)) (by rwa [hone])
  rw [hone, Bool.xor_false] at hprod
  exact hprod.eq hx

/-- **fp8 without a scale in the directory.** -/
lemma Source.faithful_none (h : Source dir name t g) (hne : t.shape ≠ []) (hfp8 : IsFp8 t)
    (hshard : shard ∈ dir) (hs : scalesOf dir name = []) : Faithful nan dir shard name t g := by
  have hs' : scalesOf [shard] name = [] := by
    have hsub : (scalesOf [shard] name).Sublist (scalesOf dir name) :=
      scalesOf_singleton_sublist hshard
    rw [hs] at hsub
    exact List.sublist_nil.mp hsub
  obtain ⟨decode, hmatrix, hdecode⟩ := h.decode shard nan hfp8
  obtain ⟨m, hm, hlen, hget⟩ := h.fp8Matrix_none nan decode hne hfp8 hs'
  refine ⟨m, by rw [hmatrix, hm]; rfl, hlen, fun r hr c hc => ?_⟩
  have hplace := rowMajor_lt hr hc
  rw [EntryFaithful, if_neg (not_sixteen hfp8), hs, hget _ hplace,
    hdecode _ (by rw [← (h.dims hne).1]; exact hplace), h.mul_one nan hfp8]
  exact f32ToBf16_narrowsTo (BinaryFormat.round_lt _ _ _)

/-- **fp8 with its scale in its shard.** -/
lemma Source.faithful_own (h : Source dir name t g) (hne : t.shape ≠ []) (hfp8 : IsFp8 t)
    (hs : scalesOf dir name = [s]) (hs' : scalesOf [shard] name = [s])
    (hdtype : s.dtype = .f32 ∨ s.dtype = .bf16)
    (hcount : s.shape.prod = 1 ∨ s.shape.prod = outDim t.shape) :
    Faithful nan dir shard name t g ↔ s.shape.prod = 1 ∨ inDim t.shape ≠ 0 := by
  obtain ⟨decode, hmatrix, hdecode⟩ := h.decode shard nan hfp8
  constructor
  · rintro ⟨m, hm, -⟩
    by_contra hrows
    obtain ⟨hone, hin⟩ := not_or.mp hrows
    rw [hmatrix, fp8Matrix_panics nan decode hdtype hcount hs' hone (not_not.mp hin)] at hm
    cases hm
  · intro hrows
    obtain ⟨m, hm, hlen, hget⟩ := h.fp8Matrix_scaled nan decode hdtype hcount hne hfp8 hs' hrows
    refine ⟨m, by rw [hmatrix, hm]; rfl, hlen, fun r hr c hc => ?_⟩
    rw [EntryFaithful, if_neg (not_sixteen hfp8), hs, hget r hr c hc,
      hdecode _ (by rw [← (h.dims hne).1]; exact rowMajor_lt hr hc)]
    exact f32ToBf16_narrowsTo (BinaryFormat.mul_lt _ _ _ _)

/-- **fp8 with its scale in another shard.** -/
lemma Source.faithful_other (h : Source dir name t g) (hne : t.shape ≠ []) (hfp8 : IsFp8 t)
    (hs : scalesOf dir name = [s]) (hs' : scalesOf [shard] name = []) :
    Faithful nan dir shard name t g ↔
      ∀ r < outDim t.shape, ∀ c < inDim t.shape,
        NarrowsTo (binary32.mul nan (g.convert binary32 (element t (r * inDim t.shape + c)))
          (scaleAt s r)) (g.convert bfloat16 (element t (r * inDim t.shape + c))) := by
  obtain ⟨decode, hmatrix, hdecode⟩ := h.decode shard nan hfp8
  obtain ⟨m, hm, hlen, hget⟩ := h.fp8Matrix_none nan decode hne hfp8 hs'
  have hentry : ∀ r < outDim t.shape, ∀ c < inDim t.shape,
      (EntryFaithful nan dir name t g r (element t (r * inDim t.shape + c))
          (m.getD (r * inDim t.shape + c) 0) ↔
        NarrowsTo (binary32.mul nan (g.convert binary32 (element t (r * inDim t.shape + c)))
          (scaleAt s r)) (g.convert bfloat16 (element t (r * inDim t.shape + c)))) := by
    intro r hr c hc
    have hplace := rowMajor_lt hr hc
    obtain ⟨hr32, hr16⟩ := h.representable hfp8 (element t (r * inDim t.shape + c))
    rw [EntryFaithful, if_neg (not_sixteen hfp8), hs, hget _ hplace,
      hdecode _ (by rw [← (h.dims hne).1]; exact hplace), f32ToBf16_convert hr32 hr16]
  constructor
  · rintro ⟨m', hm', -, hall⟩ r hr c hc
    rw [hmatrix, hm] at hm'
    obtain rfl := Option.some.inj (Except.ok.inj hm')
    exact (hentry r hr c hc).mp (hall r hr c hc)
  · intro hall
    exact ⟨m, by rw [hmatrix, hm]; rfl, hlen, fun r hr c hc =>
      (hentry r hr c hc).mpr (hall r hr c hc)⟩

/-- A tensor of 16-bit elements is converted element by element. -/
lemma Source.faithful_sixteen (h : Source dir name t g) (hne : t.shape ≠ [])
    (hdtype : t.dtype = .bf16 ∨ t.dtype = .f16) (convert : ℕ → ℕ)
    (hmatrix : bf16Matrix nan shard name t = .ok (some
      ((List.range (nElements t.shape)).map fun i => convert (u16Of t.data (i * 2))))) :
    Faithful nan dir shard name t g ↔ ∀ i < t.shape.prod,
      ∃ c, convert (element t i) = bfloat16.pack (g.isNeg (element t i)) c ∧
        bfloat16.Nearest (g.magnitude (g.low (element t i))) c := by
  obtain ⟨hprod, hn⟩ := h.dims hne
  have helement : ∀ i, u16Of t.data (i * 2) = element t i := by
    intro i
    rw [element]
    rcases hdtype with hd | hd <;> rw [hd]
  have hget : ∀ i < t.shape.prod, ((List.range (nElements t.shape)).map fun i =>
      convert (u16Of t.data (i * 2))).getD i 0 = convert (element t i) := by
    intro i hi
    rw [hn, getD_map_range hi, helement]
  constructor
  · rintro ⟨m, hm, -, hall⟩ i hi
    obtain rfl := Option.some.inj (Except.ok.inj (hmatrix.symm.trans hm))
    rw [← hprod] at hi
    -- the element is in row `i / inDim`
    have hin : 0 < inDim t.shape := Nat.pos_of_ne_zero fun h0 => by
      rw [h0, Nat.mul_zero] at hi
      cases hi
    have hrow : i / inDim t.shape < outDim t.shape := Nat.div_lt_of_lt_mul (by rwa [Nat.mul_comm])
    have hi' : i / inDim t.shape * inDim t.shape + i % inDim t.shape = i := Nat.div_add_mod' i _
    have hentry := hall _ hrow _ (Nat.mod_lt i hin)
    rwa [hi', EntryFaithful, if_pos hdtype, hget i (by rwa [← hprod])] at hentry
  · intro hall
    refine ⟨_, hmatrix, by rw [List.length_map, List.length_range, hn, hprod], fun r hr c hc => ?_⟩
    have hplace : r * inDim t.shape + c < t.shape.prod := by
      rw [← hprod]
      exact rowMajor_lt hr hc
    rw [EntryFaithful, if_pos hdtype, hget _ hplace]
    exact hall _ hplace

lemma pack_low_bfloat16 {x : ℕ} (hx : x < 2 ^ 16) :
    bfloat16.pack (bfloat16.isNeg x) (bfloat16.low x) = x := by
  change (if decide (x / 2 ^ 15 % 2 = 1) = true then 2 ^ 15 else 0) + x % 2 ^ 15 = x
  simp only [decide_eq_true_eq]
  split_ifs <;> omega

/-- **bf16 is kept.** -/
lemma Source.faithful_bf16 (h : Source dir name t g) (hne : t.shape ≠ []) (hd : t.dtype = .bf16)
    (hg : g = bfloat16) : Faithful nan dir shard name t g := by
  subst hg
  refine (h.faithful_sixteen nan hne (.inl hd) id ?_).mpr fun i _ => ?_
  · rw [bf16Matrix, hd]
    rfl
  · refine ⟨bfloat16.low (element t i), ?_, BinaryFormat.nearest_self _ _⟩
    have hlt : element t i < 2 ^ 16 := by
      have hlow := (t.data.getD (i * 2) 0).toNat_lt
      have hhigh := (t.data.getD (i * 2 + 1) 0).toNat_lt
      rw [element, hd]
      simp only [u16Of, u16At]
      omega
    exact (pack_low_bfloat16 hlt).symm

/-- **f16 is rounded, but for subnormal numbers.** -/
lemma Source.faithful_f16 (h : Source dir name t g) (hne : t.shape ≠ []) (hd : t.dtype = .f16)
    (hg : g = binary16) : Faithful nan dir shard name t g ↔
      ∀ i < t.shape.prod, 0 < g.low (element t i) → 2 ^ 10 ≤ g.low (element t i) := by
  subst hg
  have hmatrix : bf16Matrix nan shard name t = .ok (some
      ((List.range (nElements t.shape)).map fun i => f16ToBf16 nan (u16Of t.data (i * 2)))) := by
    rw [bf16Matrix, hd]
  rw [h.faithful_sixteen nan hne (.inr hd) (f16ToBf16 nan) hmatrix]
  refine forall₂_congr fun i hi => ⟨?_, fun hnormal => ?_⟩
  · rintro ⟨c, hc, hnear⟩ hpos
    by_contra hlt
    rw [f16ToBf16_subnormal nan hpos (not_le.mp hlt)] at hc
    obtain rfl : 0 = c := Nat.add_left_cancel hc
    exact not_nearest_zero hpos hnear
  · have hfinite := h.finite i hi
    rw [FiniteElement, if_neg (by rw [hd]; decide)] at hfinite
    exact f16ToBf16_nearest nan hfinite hnormal

/-- **A tensor is read faithfully exactly if it is of this kind.** -/
theorem Source.faithful_iff (h : Source dir name t g) (hne : t.shape ≠ []) (hshard : shard ∈ dir) :
    Faithful nan dir shard name t g ↔ ReadsRight nan dir shard name t g := by
  have hnotFp8 : ∀ {d : Dtype}, t.dtype = d → d ≠ .f8E4M3 → d ≠ .f8E5M2 → ¬ IsFp8 t := by
    rintro d hd h4 h5 (hfp8 | hfp8)
    · exact h4 (hd.symm.trans hfp8)
    · exact h5 (hd.symm.trans hfp8)
  rcases h.dtype with ⟨hd, hg⟩ | ⟨hd, hg⟩ | hfp8
  · have hnot := hnotFp8 hd (by decide) (by decide)
    refine ⟨fun _ => ⟨fun hd' => ?_, fun hfp8 => absurd hfp8 hnot, fun hfp8 => absurd hfp8 hnot⟩,
      fun _ => h.faithful_bf16 nan hne hd hg⟩
    rw [hd] at hd'
    cases hd'
  · have hnot := hnotFp8 hd (by decide) (by decide)
    rw [h.faithful_f16 nan hne hd hg]
    exact ⟨fun hnormal => ⟨fun _ => hnormal, fun hfp8 => absurd hfp8 hnot,
      fun hfp8 => absurd hfp8 hnot⟩, fun hright => hright.subnormal hd⟩
  · have hfp8 : IsFp8 t := hfp8.imp And.left And.left
    have hsub : t.dtype = .f16 → ∀ i < t.shape.prod, 0 < g.low (element t i) →
        2 ^ 10 ≤ g.low (element t i) := fun hd => absurd (.inr hd) (not_sixteen hfp8)
    rcases h.scale hfp8 with hnone | ⟨s, hs, hdtype, hcount⟩
    · refine ⟨fun _ => ⟨hsub, fun _ s hs => ?_, fun _ _ s hs => ?_⟩,
        fun _ => h.faithful_none nan hne hfp8 hshard hnone⟩
      · have hmem := (scalesOf_singleton_sublist hshard).subset hs
        rw [hnone] at hmem
        cases hmem
      · rw [hnone] at hs
        cases hs
    rcases scalesOf_singleton hshard hs with hs' | hs'
    · rw [h.faithful_other nan hne hfp8 hs hs']
      constructor
      · refine fun hother => ⟨hsub, fun _ s' hmem => ?_, fun _ _ s' hmem => ?_⟩
        · rw [hs'] at hmem
          cases hmem
        · rw [hs, List.mem_singleton] at hmem
          rw [hmem]
          exact hother
      · exact fun hright => hright.other hfp8 hs' s (by rw [hs]; exact List.mem_singleton_self s)
    · rw [h.faithful_own nan hne hfp8 hs hs' hdtype hcount]
      constructor
      · refine fun hown => ⟨hsub, fun _ s' hmem => ?_, fun _ hnil => ?_⟩
        · rw [hs', List.mem_singleton] at hmem
          rw [hmem]
          exact hown
        · rw [hs'] at hnil
          cases hnil
      · exact fun hright => hright.own hfp8 s (by rw [hs']; exact List.mem_singleton_self s)

end Source

end Braidinfer.Quant
