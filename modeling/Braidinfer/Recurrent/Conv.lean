/-
The causal convolutions (`op_conv1d`, `op_conv1d_3x`, `op_mamba2_conv1d` in
`kernels/megakernel_ops.hip`).

One thread per channel: it sums its window of `kernel_size` inputs, of which all but the newest are
in its state, and shifts the newest into the state.

* `convThread`, `convKernel`: the kernels, from `ConvArgs`; `opConv1d`, `opMamba2Conv1d`,
  `opConv1d3x`;
* `convThread_eq`, `convKernel_eq`: the outputs and the states after a kernel, in any order of the
  threads;
* `opConv1d3x_eq`: **the fused kernel is the three convolutions, one after the other**;
* `conv_stream`: **over any run of calls, the state holds the last inputs and the outputs are those
  of the causal convolution of all inputs so far**.
-/
import Braidinfer.Recurrent.Inst

namespace Braidinfer.Recurrent

open Braidinfer.Lib RowMem

variable {V : Type*}

/-! ### The kernels -/

/-- The arguments of a convolution; `post` is what is done to the sum of a channel before the
activation. -/
structure ConvArgs (V : Type*) where
  state : FPtr
  input : FPtr
  weight : ℕ → V
  post : ℕ → V → V
  output : FPtr
  dim : ℕ
  kernelSize : ℕ

namespace ConvArgs

variable (c : ConvArgs V)

/-- `hist` -/
def hist : ℕ := c.kernelSize - 1

/-- `s[k]` of channel `ch`. -/
def s (m : Mem V) (ch k : ℕ) : V := m.cell (c.state.add (ch * c.hist + k))

/-- `input[ch]` -/
def x (m : Mem V) (ch : ℕ) : V := m.cell (c.input.add ch)

end ConvArgs

section Kernels

variable [Add V] [Mul V] [Div V] [Neg V] [Zero V] [One V] [FloatFns V]

/-- The sum over a window: `kernelSize - 1` elements of `s`, then `x`. -/
def convAcc (kernelSize : ℕ) (w s : ℕ → V) (x : V) : V :=
  let hist := kernelSize - 1
  let acc := (List.range hist).foldl (fun acc k => acc + s k * w k) 0
  acc + x * w hist

/-- A thread of a convolution, for channel `ch`. -/
def convThread (c : ConvArgs V) (ch : ℕ) (m : Mem V) : Mem V :=
  if c.dim ≤ ch then m
  else
    let s := c.state.add (ch * c.hist)
    let w := fun k => c.weight (ch * c.kernelSize + k)
    let acc := convAcc c.kernelSize w (fun k => m.cell (s.add k)) (m.cell (c.input.add ch))
    let m := m.put (c.output.add ch) (silu (c.post ch acc))
    let m := (List.range (c.hist - 1)).foldl
      (fun m k => m.put (s.add k) (m.cell (s.add (k + 1)))) m
    m.put (s.add (c.hist - 1)) (m.cell (c.input.add ch))

/-- The threads of a grid. -/
def convKernel (o : ThreadOrder) (gridX : ℕ) (c : ConvArgs V) (m : Mem V) : Mem V :=
  runThreads (convThread c) (o.of (gridX * blockDim)) m

/-- The arguments of `op_conv1d`. -/
def Conv1dInst.args (i : Conv1dInst V) : ConvArgs V :=
  ⟨i.state, i.input, i.weight, fun _ acc => acc, i.output, i.dim, i.kernelSize⟩

/-- `op_conv1d` -/
def opConv1d (o : ThreadOrder) (i : Conv1dInst V) : Mem V → Mem V := convKernel o i.gridX i.args

/-- The arguments of `op_mamba2_conv1d`, which adds a bias. -/
def Mamba2Conv1dInst.args (i : Mamba2Conv1dInst V) : ConvArgs V :=
  ⟨i.state, i.input, i.weight, fun ch acc => acc + i.bias ch, i.output, i.convDim, i.kernelSize⟩

/-- `op_mamba2_conv1d` -/
def opMamba2Conv1d (o : ThreadOrder) (i : Mamba2Conv1dInst V) : Mem V → Mem V :=
  convKernel o i.gridX i.args

/-- The parts of the fused kernel. -/
inductive Part
  | q | k | v
deriving DecidableEq, Repr

namespace Conv1d3xInst

variable (i : Conv1d3xInst V)

/-- A part, as an instruction of its own. -/
def part : Part → Conv1dInst V
  | .q => ⟨i.blocksQk, i.qState, i.qInput, i.qWeight, i.qOutput, i.qkDim, i.kernelSize⟩
  | .k => ⟨i.blocksQk, i.kState, i.kInput, i.kWeight, i.kOutput, i.qkDim, i.kernelSize⟩
  | .v => ⟨i.blocksV, i.vState, i.vInput, i.vWeight, i.vOutput, i.vDim, i.kernelSize⟩

/-- The arguments of a part. -/
def args (p : Part) : ConvArgs V := (i.part p).args

/-- The part that a virtual block works on, and its place in it. -/
def route (vblock : ℕ) : Part × ℕ :=
  if vblock < i.blocksQk then (.q, vblock)
  else if vblock < 2 * i.blocksQk then (.k, vblock - i.blocksQk)
  else (.v, vblock - 2 * i.blocksQk)

/-- The part and the channel of a thread of the grid. -/
def thread (t : ℕ) : Part × ℕ :=
  ((i.route (t / blockDim)).1, (i.route (t / blockDim)).2 * blockDim + t % blockDim)

end Conv1d3xInst

/-- `op_conv1d_3x` -/
def opConv1d3x (o : ThreadOrder) (i : Conv1d3xInst V) (m : Mem V) : Mem V :=
  runThreads (fun t => convThread (i.args (i.thread t).1) (i.thread t).2)
    (o.of (i.gridX * blockDim)) m

end Kernels

/-! ### What a thread leaves -/

namespace ConvArgs

variable (c : ConvArgs V)

/-- The cells a thread writes of `w` cells. -/
def active (ch w : ℕ) : ℕ := if ch < c.dim then w else 0

/-- The state of a channel after the shift. -/
def next (m : Mem V) (ch k : ℕ) : V := if k + 1 < c.hist then c.s m ch (k + 1) else c.x m ch

/-- The output of a channel. -/
def out [Add V] [Mul V] [Div V] [Neg V] [Zero V] [One V] [FloatFns V] (m : Mem V) (ch : ℕ) : V :=
  silu (c.post ch (convAcc c.kernelSize (fun k => c.weight (ch * c.kernelSize + k)) (c.s m ch)
    (c.x m ch)))

/-- The cells that thread `ch` writes. -/
def writes (ch : ℕ) : Set FPtr :=
  (c.output.add ch).cells (c.active ch 1) ∪
    (c.state.add (ch * c.hist)).cells (c.active ch c.hist)

/-- The blocks of a convolution are different ones, and its window has at least two inputs. -/
structure Sound : Prop where
  two_le : 2 ≤ c.kernelSize
  output_state : c.output.block ≠ c.state.block
  input_output : c.input.block ≠ c.output.block
  input_state : c.input.block ≠ c.state.block

end ConvArgs

/-- The loop of the shift. -/
lemma foldl_shift (m : Mem V) (s : FPtr) (n : ℕ) :
    (List.range n).foldl (fun m k => m.put (s.add k) (m.cell (s.add (k + 1)))) m =
      m.fill s n fun k => m.cell (s.add (k + 1)) := by
  induction n with
  | zero => rw [fill_zero]; rfl
  | succ n ih =>
      rw [List.range_succ, List.foldl_append, ih, List.foldl_cons, List.foldl_nil,
        cell_fill_of_notMem fun h => absurd (DevPtr.add_mem_cells.mp h) (by omega)]
      exact put_fill fun k => m.cell (s.add (k + 1))

set_option linter.unusedSectionVars false

variable [Add V] [Mul V] [Div V] [Neg V] [Zero V] [One V] [FloatFns V]

variable {c : ConvArgs V} {m : Mem V} {ch : ℕ}

/-- A window by its elements. -/
lemma convAcc_congr {kernelSize : ℕ} {w w' s s' : ℕ → V} {x : V}
    (hw : ∀ k < kernelSize, w k = w' k) (hs : ∀ k < kernelSize - 1, s k = s' k)
    (hpos : 0 < kernelSize) : convAcc kernelSize w s x = convAcc kernelSize w' s' x := by
  rw [convAcc, convAcc, hw _ (Nat.sub_lt hpos Nat.one_pos)]
  refine congrArg (· + _) (List.foldl_ext _ _ _ fun acc k hk => ?_)
  have hlt := List.mem_range.mp hk
  rw [hs k hlt, hw k (by omega)]

/-- **What a thread leaves**: the output of its channel and the shifted state. -/
lemma convThread_eq (hc : c.Sound) :
    convThread c ch m =
      (m.fill (c.output.add ch) (c.active ch 1) fun _ => c.out m ch).fill
        (c.state.add (ch * c.hist)) (c.active ch c.hist) (c.next m ch) := by
  rw [convThread]
  by_cases hch : c.dim ≤ ch
  · rw [if_pos hch, ConvArgs.active, ConvArgs.active, if_neg (Nat.not_lt.mpr hch),
      if_neg (Nat.not_lt.mpr hch), fill_zero, fill_zero]
  have hhist : 0 < c.hist := Nat.sub_pos_of_lt hc.two_le
  have hact : ∀ w, c.active ch w = w := fun w => if_pos (Nat.lt_of_not_le hch)
  rw [if_neg hch, hact, hact, fill_one]
  have hshift := put_fill (m := m.put (c.output.add ch) (c.out m ch))
    (p := c.state.add (ch * c.hist)) (n := c.hist - 1) (c.next m ch)
  have hlast : c.next m ch (c.hist - 1) = m.cell (c.input.add ch) := by
    rw [ConvArgs.next, if_neg (by omega)]
    rfl
  rw [hlast, Nat.sub_add_cancel hhist] at hshift
  -- the state without its last element, then the last element
  have hnext : ∀ k < c.hist - 1, (m.put (c.output.add ch) (c.out m ch)).cell
      ((c.state.add (ch * c.hist)).add (k + 1)) = c.next m ch k := fun k hk => by
    rw [ConvArgs.next, if_pos (by omega), DevPtr.add_add]
    exact cell_put_of_block_ne hc.output_state.symm
  have hinput : ∀ g : ℕ → V, ((m.put (c.output.add ch) (c.out m ch)).fill
      (c.state.add (ch * c.hist)) (c.hist - 1) g).cell (c.input.add ch) =
        m.cell (c.input.add ch) := fun g => by
    refine (cell_fill_of_ne ?_).trans (cell_put_of_block_ne ?_)
    · exact hc.input_state
    · exact hc.input_output
  have hacc : silu (c.post ch (convAcc c.kernelSize
      (fun k => c.weight (ch * c.kernelSize + k))
      (fun k => m.cell ((c.state.add (ch * c.hist)).add k)) (m.cell (c.input.add ch)))) =
        c.out m ch := by
    simp only [DevPtr.add_add]
    rfl
  simp only [hacc, foldl_shift]
  rw [← hshift, hinput, fill_congr hnext]

/-- **The outputs and the states after a kernel**, in any order of the threads. -/
theorem convKernel_eq {o : ThreadOrder} {gridX : ℕ} (hc : c.Sound)
    (hgrid : c.dim ≤ gridX * blockDim) :
    convKernel o gridX c m =
      (m.fill c.output c.dim (c.out m)).fill c.state (c.dim * c.hist)
        fun j => c.next m (j / c.hist) (j % c.hist) := by
  have hthread : convThread c = fun ch (m : Mem V) => if ch < c.dim then
      (m.fill (c.output.add (ch * 1)) 1 fun _ => c.out m ch).fill
        (c.state.add (ch * c.hist)) c.hist (c.next m ch) else m := by
    funext ch m
    rw [convThread_eq hc, ConvArgs.active, ConvArgs.active, Nat.mul_one]
    split_ifs
    · rfl
    · rw [fill_zero, fill_zero]
  rw [convKernel, hthread, runThreads_fill_fill (o.perm _) hgrid (.inr hc.output_state.symm)]
  · simp only [Nat.mul_one, Nat.div_one]
  · intro ch hch m m' hm
    have hx : c.x m ch = c.x m' ch := hm.of_block_ne₂ hc.input_output hc.input_state
    have hs : ∀ k < c.hist, c.s m ch k = c.s m' ch k := fun k hk =>
      hm.own_right hc.output_state.symm hk
    constructor
    · intro k _
      rw [ConvArgs.out, ConvArgs.out, hx]
      exact congrArg (fun acc => silu (c.post ch acc))
        (convAcc_congr (fun _ _ => rfl) hs (Nat.lt_of_lt_of_le Nat.two_pos hc.two_le))
    · intro k hk
      rw [ConvArgs.next, ConvArgs.next, hx]
      split_ifs with hlt
      · exact hs _ hlt
      · rfl

/-! ### The fused kernel -/

/-- Channels have cells of their own. -/
lemma ConvArgs.Sound.notMem_writes (hc : c.Sound) {ch' : ℕ} (hne : ch ≠ ch') {a : FPtr}
    (ha : a ∈ c.writes ch) : a ∉ c.writes ch' := by
  have hle : ∀ (x : ℕ) (w : ℕ), c.active x w ≤ w := fun x w => by
    rw [ConvArgs.active]
    split_ifs <;> omega
  -- a cell of a channel is in the piece of the channel
  have hpiece : ∀ {p : FPtr} {w x : ℕ}, a ∈ (p.add (x * w)).cells (c.active x w) →
      a ∈ piece p w x := fun {p w x} ⟨hb, hlo, hhi⟩ =>
    ⟨hb, hlo, hhi.trans_le (Nat.add_le_add_left (hle x w) _)⟩
  have hcell : ∀ {x : ℕ}, a ∈ (c.output.add x).cells (c.active x 1) → a ∈ piece c.output 1 x :=
    fun {x} h => hpiece (by rwa [Nat.mul_one])
  rintro (ha' | ha') <;> rcases ha with ha | ha
  · exact hne (eq_of_mem_piece (hcell ha) (hcell ha'))
  · exact hc.output_state (ha'.1.symm.trans ha.1)
  · exact hc.output_state (ha.1.symm.trans ha'.1)
  · exact hne (eq_of_mem_piece (hpiece ha) (hpiece ha'))

namespace Conv1d3xInst

/-- Each part is sound, and none reads or writes what another writes; the grid covers the
channels. -/
structure Sound (i : Conv1d3xInst V) : Prop where
  parts : ∀ p, (i.args p).Sound
  outputs : ∀ p p', p ≠ p' → (i.args p).output.block ≠ (i.args p').output.block
  output_state : ∀ p p', (i.args p).output.block ≠ (i.args p').state.block
  states : ∀ p p', p ≠ p' → ∀ a ∈ (i.args p).state.cells ((i.args p).dim * (i.args p).hist),
    a ∉ (i.args p').state.cells ((i.args p').dim * (i.args p').hist)
  input_output : ∀ p p', (i.args p).input.block ≠ (i.args p').output.block
  input_state : ∀ p p', (i.args p).input.block ≠ (i.args p').state.block
  gridX : i.gridX = 2 * i.blocksQk + i.blocksV
  covers : ∀ p, (i.part p).dim ≤ (i.part p).gridX * blockDim

/-- `new`: the grid that covers the channels. -/
def new (qState qInput : FPtr) (qWeight : ℕ → V) (qOutput : FPtr) (kState kInput : FPtr)
    (kWeight : ℕ → V) (kOutput : FPtr) (vState vInput : FPtr) (vWeight : ℕ → V) (vOutput : FPtr)
    (qkDim vDim kernelSize : ℕ) : Conv1d3xInst V :=
  let blocksQk := (qkDim + 255) / 256
  let blocksV := (vDim + 255) / 256
  { gridX := 2 * blocksQk + blocksV
    qState, qInput, qWeight, qOutput, kState, kInput, kWeight, kOutput, vState, vInput, vWeight
    vOutput, qkDim, vDim, kernelSize, blocksQk, blocksV }

variable {i : Conv1d3xInst V}

/-- The cells of a thread are in the output of its part or in the state of its part. -/
lemma mem_writes {c : ConvArgs V} {ch : ℕ} {a : FPtr} (ha : a ∈ c.writes ch) :
    a.block = c.output.block ∨ a ∈ c.state.cells (c.dim * c.hist) := by
  rcases ha with ha | ha
  · exact .inl ha.1
  · rw [ConvArgs.active] at ha
    split_ifs at ha with hch
    · obtain ⟨k, hk, rfl⟩ := DevPtr.exists_add_of_mem ha
      rw [DevPtr.add_add]
      exact .inr (DevPtr.add_mem_cells.mpr (rowMajor_lt hch hk))
    · exact absurd ha.2 (by omega)

/-- Parts write different cells. -/
lemma Sound.apart (hi : i.Sound) {p p' : Part} (hne : p ≠ p') (ch ch' : ℕ) {a : FPtr}
    (ha : a ∈ (i.args p).writes ch) : a ∉ (i.args p').writes ch' := by
  intro ha'
  rcases mem_writes ha with h | h <;> rcases mem_writes ha' with h' | h'
  · exact hi.outputs p p' hne (h.symm.trans h')
  · exact hi.output_state p p' (h.symm.trans h'.1)
  · exact hi.output_state p' p (h'.symm.trans h.1)
  · exact hi.states p p' hne a h h'

/-- The states of the three parts in one block, one behind the other; inputs in another block, and
outputs in three more. -/
lemma sound_new {state input outQ outK outV : FPtr} {inQ inK inV : ℕ} {wq wk wv : ℕ → V}
    {qkDim vDim kernelSize : ℕ} (htwo : 2 ≤ kernelSize)
    (hblocks : [state.block, input.block, outQ.block, outK.block, outV.block].Nodup) :
    (new state (input.add inQ) wq outQ (state.add (qkDim * (kernelSize - 1))) (input.add inK) wk
      outK (state.add ((qkDim + qkDim) * (kernelSize - 1))) (input.add inV) wv outV qkDim vDim
      kernelSize).Sound := by
  simp only [List.nodup_cons, List.mem_cons, List.not_mem_nil, or_false, not_or, not_false_iff,
    List.nodup_nil, and_true] at hblocks
  obtain ⟨⟨hsi, hsq, hsk, hsv⟩, ⟨hiq, hik, hiv⟩, ⟨hqk, hqv⟩, hkv⟩ := hblocks
  -- ranges that are behind one another
  have hrange : ∀ {x y n k : ℕ} {a : FPtr}, x + n ≤ y ∨ y + k ≤ x →
      a ∈ (state.add x).cells n → a ∉ (state.add y).cells k := fun {x y n k a} hsep hx hy => by
    obtain ⟨-, hlo, hhi⟩ := hx
    obtain ⟨-, hlo', hhi'⟩ := hy
    simp only [DevPtr.add_off] at hlo hhi hlo' hhi'
    omega
  have hdouble : (qkDim + qkDim) * (kernelSize - 1) =
      qkDim * (kernelSize - 1) + qkDim * (kernelSize - 1) := Nat.add_mul _ _ _
  have hsqk : ∀ a ∈ (state.add 0).cells (qkDim * (kernelSize - 1)),
      a ∉ (state.add (qkDim * (kernelSize - 1))).cells (qkDim * (kernelSize - 1)) :=
    fun _ => hrange (by omega)
  have hsqv : ∀ a ∈ (state.add 0).cells (qkDim * (kernelSize - 1)),
      a ∉ (state.add ((qkDim + qkDim) * (kernelSize - 1))).cells (vDim * (kernelSize - 1)) :=
    fun _ => hrange (by omega)
  have hskv : ∀ a ∈ (state.add (qkDim * (kernelSize - 1))).cells (qkDim * (kernelSize - 1)),
      a ∉ (state.add ((qkDim + qkDim) * (kernelSize - 1))).cells (vDim * (kernelSize - 1)) :=
    fun _ => hrange (by omega)
  have hceil : ∀ n : ℕ, n ≤ (n + 255) / 256 * 256 := fun n => by omega
  refine ⟨?_, ?_, ?_, ?_, ?_, ?_, rfl, ?_⟩
  · rintro (_ | _ | _)
    exacts [⟨htwo, Ne.symm hsq, hiq, Ne.symm hsi⟩, ⟨htwo, Ne.symm hsk, hik, Ne.symm hsi⟩,
      ⟨htwo, Ne.symm hsv, hiv, Ne.symm hsi⟩]
  · rintro (_ | _ | _) (_ | _ | _) hne
    exacts [absurd rfl hne, hqk, hqv, Ne.symm hqk, absurd rfl hne, hkv, Ne.symm hqv, Ne.symm hkv,
      absurd rfl hne]
  · rintro (_ | _ | _) (_ | _ | _)
    exacts [Ne.symm hsq, Ne.symm hsq, Ne.symm hsq, Ne.symm hsk, Ne.symm hsk, Ne.symm hsk,
      Ne.symm hsv, Ne.symm hsv, Ne.symm hsv]
  · rintro (_ | _ | _) (_ | _ | _) hne a
    exacts [absurd rfl hne, hsqk a, hsqv a, fun h h' => hsqk a h' h, absurd rfl hne, hskv a,
      fun h h' => hsqv a h' h, fun h h' => hskv a h' h, absurd rfl hne]
  · rintro (_ | _ | _) (_ | _ | _)
    exacts [hiq, hik, hiv, hiq, hik, hiv, hiq, hik, hiv]
  · rintro (_ | _ | _) (_ | _ | _) <;> exact Ne.symm hsi
  · rintro (_ | _ | _)
    exacts [hceil qkDim, hceil qkDim, hceil vDim]

lemma thread_injective : Function.Injective i.thread := by
  intro t t' h
  have hroute : ∀ v, (i.route v).1 = .q ∧ (i.route v).2 = v ∨
      (i.route v).1 = .k ∧ (i.route v).2 + i.blocksQk = v ∨
      (i.route v).1 = .v ∧ (i.route v).2 + 2 * i.blocksQk = v := fun v => by
    rw [route]
    split_ifs with h₁ h₂
    · exact .inl ⟨rfl, rfl⟩
    · exact .inr (.inl ⟨rfl, Nat.sub_add_cancel (Nat.not_lt.mp h₁)⟩)
    · exact .inr (.inr ⟨rfl, Nat.sub_add_cancel (Nat.not_lt.mp h₂)⟩)
  have hpart : (i.thread t).1 = (i.thread t').1 := congrArg Prod.fst h
  have hchannel : (i.thread t).2 = (i.thread t').2 := congrArg Prod.snd h
  obtain ⟨hplace, hmod⟩ :=
    rowMajor_inj (Nat.mod_lt t blockDim_pos) (Nat.mod_lt t' blockDim_pos) hchannel
  have hdiv : t / blockDim = t' / blockDim := by
    rcases hroute (t / blockDim) with ⟨hp, hv⟩ | ⟨hp, hv⟩ | ⟨hp, hv⟩ <;>
      rcases hroute (t' / blockDim) with ⟨hp', hv'⟩ | ⟨hp', hv'⟩ | ⟨hp', hv'⟩ <;>
      first
        | omega
        | exact absurd (hp.symm.trans (hpart.trans hp')) (by decide)
  calc t = blockDim * (t / blockDim) + t % blockDim := (Nat.div_add_mod _ _).symm
    _ = blockDim * (t' / blockDim) + t' % blockDim := by rw [hdiv, hmod]
    _ = t' := Nat.div_add_mod _ _

/-- The threads of the fused kernel do not race. -/
lemma raceFree (hi : i.Sound) (ts : List ℕ) :
    RaceFree RowMem.cell (fun t => convThread (i.args (i.thread t).1) (i.thread t).2)
      (fun t => (i.args (i.thread t).1).writes (i.thread t).2) ts := by
  have hstep : (fun t => convThread (i.args (i.thread t).1) (i.thread t).2) = fun t m =>
      let c := i.args (i.thread t).1
      let ch := (i.thread t).2
      (m.fill (c.output.add ch) (c.active ch 1) fun _ => c.out m ch).fill
        (c.state.add (ch * c.hist)) (c.active ch c.hist) (c.next m ch) := by
    funext t m
    exact convThread_eq (hi.parts _)
  have hdisj : ∀ t t', t ≠ t' → ∀ a ∈ (i.args (i.thread t).1).writes (i.thread t).2,
      a ∉ (i.args (i.thread t').1).writes (i.thread t').2 := by
    intro t t' hne a ha
    by_cases hp : (i.thread t).1 = (i.thread t').1
    · rw [← hp]
      refine (hi.parts _).notMem_writes (fun hch => hne ?_) ha
      exact thread_injective (Prod.ext hp hch)
    · exact hi.apart hp _ _ ha
  rw [hstep]
  refine raceFree_fill_fill (fun t _ t' _ hne => hdisj t t' hne) fun t _ m m' hm => ?_
  let c := i.args (i.thread t).1
  let ch := (i.thread t).2
  have hx : c.x m ch = c.x m' ch := hm _ fun t' _ _ hmem => by
    rcases hmem with hmem | hmem
    · exact hi.input_output _ _ hmem.1
    · exact hi.input_state _ _ hmem.1
  have hs : ∀ k < c.hist, ch < c.dim → c.s m ch k = c.s m' ch k := fun k hk hch => by
    refine hm _ fun t' _ hne => hdisj t t' (Ne.symm hne) _ (.inr ?_)
    rw [ConvArgs.active, if_pos hch, ← DevPtr.add_add, DevPtr.add_mem_cells]
    exact hk
  have hlt : ∀ {k w : ℕ}, k < c.active ch w → ch < c.dim ∧ k < w := fun {k w} hk => by
    rw [ConvArgs.active] at hk
    split_ifs at hk with hch
    · exact ⟨hch, hk⟩
    · exact absurd hk (Nat.not_lt_zero k)
  constructor
  · intro k hk
    have hch := (hlt hk).1
    change c.out m ch = c.out m' ch
    rw [ConvArgs.out, ConvArgs.out, hx]
    exact congrArg (fun acc => silu (c.post ch acc)) (convAcc_congr (fun _ _ => rfl)
      (fun k hk => hs k hk hch) (Nat.lt_of_lt_of_le Nat.two_pos (hi.parts _).two_le))
  · intro k hk
    obtain ⟨hch, -⟩ := hlt hk
    change c.next m ch k = c.next m' ch k
    rw [ConvArgs.next, ConvArgs.next, hx]
    split_ifs with hnext
    · exact hs _ hnext hch
    · rfl

/-- The first virtual block of a part. -/
def first (i : Conv1d3xInst V) : Part → ℕ
  | .q => 0
  | .k => i.blocksQk
  | .v => 2 * i.blocksQk

lemma route_first (p : Part) {v : ℕ} (hv : v < (i.part p).gridX) :
    i.route (i.first p + v) = (p, v) := by
  cases p with
  | q =>
      have hlt : v < i.blocksQk := hv
      rw [route, first, Nat.zero_add, if_pos hlt]
  | k =>
      have hlt : v < i.blocksQk := hv
      rw [route, first, if_neg (by omega), if_pos (by omega), Nat.add_sub_cancel_left]
  | v => rw [route, first, if_neg (by omega), if_neg (by omega), Nat.add_sub_cancel_left]

/-- The threads of a part, in order. -/
lemma runThreads_part (p : Part) :
    runThreads (fun t => convThread (i.args (i.thread t).1) (i.thread t).2)
      ((List.range ((i.part p).gridX * blockDim)).map (i.first p * blockDim + ·)) m =
    convKernel ThreadOrder.id (i.part p).gridX (i.args p) m := by
  rw [runThreads, List.foldl_map]
  refine List.foldl_ext _ _ _ fun m' t ht => ?_
  have hdiv : t / blockDim < (i.part p).gridX :=
    (Nat.div_lt_iff_lt_mul blockDim_pos).mpr (List.mem_range.mp ht)
  have hblock : (i.first p * blockDim + t) / blockDim = i.first p + t / blockDim := by
    rw [Nat.mul_comm, Nat.mul_add_div blockDim_pos]
  have hthread : i.thread (i.first p * blockDim + t) = (p, t) := by
    rw [thread, hblock, route_first p hdiv, Nat.mul_comm (i.first p), Nat.mul_add_mod,
      Nat.div_add_mod']
  rw [hthread]

/-- The fused kernel is the kernels of its parts, one after the other. -/
lemma opConv1d3x_eq_kernels (hi : i.Sound) (o : ThreadOrder) :
    opConv1d3x o i m =
      convKernel ThreadOrder.id (i.part .v).gridX (i.args .v)
        (convKernel ThreadOrder.id (i.part .k).gridX (i.args .k)
          (convKernel ThreadOrder.id (i.part .q).gridX (i.args .q) m)) := by
  have horder : opConv1d3x o i m = runThreads
      (fun t => convThread (i.args (i.thread t).1) (i.thread t).2)
      (List.range (i.gridX * blockDim)) m := by
    refine ext_cell fun a => ?_
    exact (raceFree hi _).runThreads_perm List.nodup_range (o.perm _).symm
  have hsplit : i.gridX * blockDim = i.blocksQk * blockDim + i.blocksQk * blockDim +
      i.blocksV * blockDim := by
    rw [hi.gridX, Nat.add_mul, Nat.two_mul, Nat.add_mul]
  have hrange : List.range (i.gridX * blockDim) =
      (List.range ((i.part .q).gridX * blockDim)).map (i.first .q * blockDim + ·) ++
        (List.range ((i.part .k).gridX * blockDim)).map (i.first .k * blockDim + ·) ++
        (List.range ((i.part .v).gridX * blockDim)).map (i.first .v * blockDim + ·) := by
    have hv : i.first .v * blockDim = i.blocksQk * blockDim + i.blocksQk * blockDim := by
      rw [first, Nat.mul_assoc, Nat.two_mul]
    have hzero : (i.first .q * blockDim + ·) = (id : ℕ → ℕ) := by
      funext t
      rw [first, Nat.zero_mul, Nat.zero_add, id]
    rw [hsplit, List.range_add, List.range_add, hzero, List.map_id, hv]
    rfl
  rw [horder, hrange, runThreads_append, runThreads_append, runThreads_part, runThreads_part,
    runThreads_part]

/-- **The fused kernel is the three convolutions**, whatever the orders of the threads. -/
theorem opConv1d3x_eq (hi : i.Sound) (o oq ok ov : ThreadOrder) :
    opConv1d3x o i m =
      opConv1d ov (i.part .v) (opConv1d ok (i.part .k) (opConv1d oq (i.part .q) m)) := by
  have hkernel : ∀ p o' m', opConv1d o' (i.part p) m' =
      convKernel ThreadOrder.id (i.part p).gridX (i.args p) m' := fun p o' m' => by
    rw [convKernel_eq (hi.parts p) (hi.covers p)]
    exact convKernel_eq (hi.parts p) (hi.covers p)
  rw [opConv1d3x_eq_kernels hi, hkernel, hkernel, hkernel]

/-- Two channels for queries and keys, three for values. -/
theorem opConv1d3x_eq_five :
    let state : FPtr := ⟨.gdnConv 0, 0⟩
    let i : Conv1d3xInst ℝ := new state ((act .qkv).add 0) (fun k => k) (act .qGdn)
      (state.add (2 * (4 - 1))) ((act .qkv).add 2) (fun k => k + 1) (act .kGdn)
      (state.add ((2 + 2) * (4 - 1))) ((act .qkv).add 4) (fun k => k + 2) (act .vGdn) 2 3 4
    let m : Mem ℝ := fun _ j => j
    opConv1d3x ThreadOrder.id i m =
      opConv1d ThreadOrder.id (i.part .v) (opConv1d ThreadOrder.id (i.part .k)
        (opConv1d ThreadOrder.id (i.part .q) m)) := by
  intro state i m
  have hi : i.Sound := sound_new (by decide) (by decide)
  exact opConv1d3x_eq hi _ _ _ _

end Conv1d3xInst

/-! ### Runs -/

/-- A run of calls: `m t` is the memory before call `t`.  Between two calls the rest of the program
may write anything but the state. -/
def ConvRun (c : ConvArgs V) (o : ℕ → ThreadOrder) (gridX : ℕ) (m : ℕ → Mem V) : Prop :=
  ∀ t, ∀ a ∈ c.state.cells (c.dim * c.hist),
    (m (t + 1)).cell a = (convKernel (o t) gridX c (m t)).cell a

/-- The inputs of a channel over a run, behind what its state held at first. -/
def ConvArgs.stream (c : ConvArgs V) (m : ℕ → Mem V) (ch j : ℕ) : V :=
  if j < c.hist then c.s (m 0) ch j else c.x (m (j - c.hist)) ch

/-- The state of a channel after a kernel. -/
lemma s_convKernel {o : ThreadOrder} {gridX k : ℕ} (hc : c.Sound)
    (hgrid : c.dim ≤ gridX * blockDim) (hch : ch < c.dim) (hk : k < c.hist) :
    c.s (convKernel o gridX c m) ch k = c.next m ch k := by
  rw [ConvArgs.s, convKernel_eq hc hgrid, cell_fill_add (rowMajor_lt hch hk), rowMajor_div hk,
    rowMajor_mod hk]

/-- **The causal convolution**: over any run, the state of a channel holds its last inputs, oldest
first, and each output is the activation of the weighted sum over the last `kernel_size` inputs. -/
theorem conv_stream {o : ℕ → ThreadOrder} {gridX : ℕ} {mem : ℕ → Mem V} (hc : c.Sound)
    (hgrid : c.dim ≤ gridX * blockDim) (hrun : ConvRun c o gridX mem) (hch : ch < c.dim) (t : ℕ) :
    (∀ k < c.hist, c.s (mem t) ch k = c.stream mem ch (t + k)) ∧
      (convKernel (o t) gridX c (mem t)).cell (c.output.add ch) =
        silu (c.post ch ((List.range c.kernelSize).foldl
          (fun acc k => acc + c.stream mem ch (t + k) * c.weight (ch * c.kernelSize + k)) 0)) := by
  have hx : ∀ t, c.x (mem t) ch = c.stream mem ch (t + c.hist) := fun t => by
    rw [ConvArgs.stream, if_neg (by omega), Nat.add_sub_cancel]
  have hstate : ∀ t, ∀ k < c.hist, c.s (mem t) ch k = c.stream mem ch (t + k) := by
    intro t
    induction t with
    | zero =>
        intro k hk
        rw [ConvArgs.stream, Nat.zero_add, if_pos hk]
    | succ t ih =>
        intro k hk
        have hkeep : c.s (mem (t + 1)) ch k = c.s (convKernel (o t) gridX c (mem t)) ch k :=
          hrun t _ (DevPtr.add_mem_cells.mpr (rowMajor_lt hch hk))
        rw [hkeep, s_convKernel hc hgrid hch hk, ConvArgs.next]
        split_ifs with hnext
        · rw [ih _ hnext, Nat.add_right_comm, Nat.add_assoc]
        · rw [hx, show t + 1 + k = t + c.hist by omega]
  refine ⟨hstate t, ?_⟩
  have hwindow : List.range c.kernelSize = List.range c.hist ++ [c.hist] := by
    rw [← List.range_succ, ConvArgs.hist, Nat.succ_eq_add_one,
      Nat.sub_add_cancel (Nat.one_le_of_lt hc.two_le)]
  rw [convKernel_eq hc hgrid, cell_fill_of_ne (by exact hc.output_state), cell_fill_add hch,
    ConvArgs.out, convAcc]
  have hsum : (List.range (c.kernelSize - 1)).foldl
      (fun acc k => acc + c.s (mem t) ch k * c.weight (ch * c.kernelSize + k)) 0 =
      (List.range c.hist).foldl
        (fun acc k => acc + c.stream mem ch (t + k) * c.weight (ch * c.kernelSize + k)) 0 :=
    List.foldl_ext _ _ _ fun acc k hk => by rw [hstate t k (List.mem_range.mp hk)]
  rw [hsum, hx, hwindow, List.foldl_append, List.foldl_cons, List.foldl_nil]
  rfl

/-- Three taps on one channel. -/
def threeTaps : ConvArgs ℝ :=
  ⟨⟨.gdnConv 0, 0⟩, act .qkv, fun k => (k : ℝ) + 1, fun _ acc => acc, act .qGdn, 1, 3⟩

/-- Calls of its kernel with the inputs `5`, `6` and so on, from the state `2, 3`. -/
noncomputable def threeTapsRun : ℕ → Mem ℝ
  | 0 => fun b x => if b = .gdnConv 0 then (x + 2 : ℕ) else (5 : ℕ)
  | t + 1 => fun b x => if b = .gdnConv 0 then
      convKernel ThreadOrder.id 1 threeTaps (threeTapsRun t) (.gdnConv 0) x else (5 + (t + 1) : ℕ)

/-- The second output is of the state `3` and of both inputs. -/
theorem conv_stream_second : (convKernel ThreadOrder.id 1 threeTaps (threeTapsRun 1)).cell
    (act .qGdn) = silu (0 + 3 * 1 + 5 * 2 + 6 * 3) := by
  have hc : threeTaps.Sound := ⟨by decide, by decide, by decide, by decide⟩
  have hrun : ConvRun threeTaps (fun _ => ThreadOrder.id) 1 threeTapsRun := fun t a ha => by
    have hblock : a.block = .gdnConv 0 := ha.1
    rw [threeTapsRun, RowMem.cell, if_pos hblock, RowMem.cell, hblock]
  have hout := (conv_stream hc (by decide) hrun (show 0 < threeTaps.dim from Nat.one_pos) 1).2
  rw [DevPtr.add_zero] at hout
  -- the window of the second call
  have hstate : Block.act .qkv ≠ .gdnConv 0 := Block.noConfusion
  have hwindow : ∀ k < 3, threeTaps.stream threeTapsRun 0 (1 + k) =
      if k = 0 then 3 else if k = 1 then 5 else 6 := fun k hk => by
    obtain rfl | rfl | rfl : k = 0 ∨ k = 1 ∨ k = 2 := by omega
    all_goals
      norm_num [ConvArgs.stream, ConvArgs.hist, ConvArgs.s, ConvArgs.x, RowMem.cell, threeTaps,
        threeTapsRun, act, DevPtr.add, hstate]
  refine hout.trans (congrArg silu ?_)
  simp only [threeTaps, List.range_succ, List.range_zero, List.nil_append, List.foldl_append,
    List.foldl_cons, List.foldl_nil] at hwindow ⊢
  rw [hwindow 0 (by decide), hwindow 1 (by decide), hwindow 2 (by decide)]
  norm_num

end Braidinfer.Recurrent
