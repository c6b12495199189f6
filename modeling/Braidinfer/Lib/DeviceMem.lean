/-
Device memory behind pointers, and the loops over it.

A pointer is a block and an offset in it; blocks never overlap.  A kernel leaves ranges of cells at
pointers; each of its threads leaves a piece of every range.

* `DevPtr`, `cells`: pointers and the cells behind them; `cell`, `put`: one cell; `slice`: the
  first cells; `fill`: a range that was written (`cell_fill_add`, `slice_fill`,
  `cell_fill_of_notMem`);
* `piece`, `Around`: the pieces of a range, and memories that agree but for those of other threads;
  `ReadsAround`: a value that does not depend on those;
* `runThreads_fill`, `runThreads_fill_fill`: **threads that each write a piece of one range, or of
  two, write the ranges, in any order**; `runThreads_columns`: the same for columns of a range;
* `blockFor_put`: the same for the loop of a block, one cell at a time.
-/
import Braidinfer.Lib.ParallelFor
import Braidinfer.Lib.RowMajor
import Braidinfer.Lib.RowMem

namespace Braidinfer.Lib

/-! ### Pointers and cells -/

/-- A pointer to elements of a block. -/
structure DevPtr (B : Type*) where
  block : B
  off : ℕ
deriving DecidableEq, Repr

namespace DevPtr

variable {B : Type*}

/-- `ptr.add(n)` -/
def add (p : DevPtr B) (n : ℕ) : DevPtr B := { p with off := p.off + n }

/-- The cells `p[0], …, p[n - 1]`. -/
def cells (p : DevPtr B) (n : ℕ) : Set (DevPtr B) :=
  {q | q.block = p.block ∧ p.off ≤ q.off ∧ q.off < p.off + n}

variable {p q : DevPtr B} {n k i : ℕ}

@[simp] lemma add_block : (p.add n).block = p.block := rfl

@[simp] lemma add_off : (p.add n).off = p.off + n := rfl

@[simp] lemma add_zero : p.add 0 = p := rfl

lemma add_add : (p.add n).add k = p.add (n + k) :=
  congrArg (DevPtr.mk p.block) (Nat.add_assoc _ _ _)

lemma mem_cells : q ∈ p.cells n ↔ q.block = p.block ∧ p.off ≤ q.off ∧ q.off < p.off + n := Iff.rfl

@[simp] lemma add_mem_cells : p.add i ∈ p.cells n ↔ i < n := by
  rw [mem_cells, add_block, add_off]
  constructor
  · rintro ⟨-, -, h⟩
    omega
  · exact fun h => ⟨rfl, by omega, by omega⟩

/-- A cell by its place. -/
lemma exists_add_of_mem (h : q ∈ p.cells n) : ∃ i < n, q = p.add i := by
  obtain ⟨hb, hlo, hhi⟩ := h
  refine ⟨q.off - p.off, by omega, ?_⟩
  cases q
  cases p
  simp only [add, mk.injEq] at hb hlo ⊢
  exact ⟨hb, by omega⟩

lemma notMem_of_block_ne (h : q.block ≠ p.block) : q ∉ p.cells n := fun hq => h hq.1

/-- The pieces of a range. -/
lemma mem_piece {w : ℕ} (hk : k < w) :
    p.add (i * w + k) ∈ (p.add (n * w)).cells w ↔ i = n := by
  rw [mem_cells]
  simp only [add_block, add_off]
  constructor
  · rintro ⟨-, hlo, hhi⟩
    have hle : n * w ≤ i * w + k := by omega
    have hlt : i * w + k < n * w + w := by omega
    have hdiv : (i * w + k) / w = n := Nat.div_eq_of_lt_le hle (by rwa [Nat.succ_mul])
    rw [← hdiv, rowMajor_div hk]
  · rintro rfl
    exact ⟨trivial, by omega, by omega⟩

end DevPtr

namespace RowMem

variable {B V : Type*}

/-- The cell at a pointer. -/
def cell (m : RowMem B V) (p : DevPtr B) : V := m p.block p.off

/-- The first `n` values, and zeros behind them. -/
def pad [Zero V] (n : ℕ) (g : ℕ → V) : ℕ → V := fun i => if i < n then g i else 0

/-- The row `p[0], …, p[n - 1]`. -/
def slice [Zero V] (m : RowMem B V) (p : DevPtr B) (n : ℕ) : ℕ → V := pad n fun i => m.cell (p.add i)

lemma ext_cell {m m' : RowMem B V} (h : ∀ p, m.cell p = m'.cell p) : m = m' :=
  funext fun b => funext fun j => h ⟨b, j⟩

section Rows

variable [Zero V] {n i : ℕ} {g g' : ℕ → V} {m : RowMem B V} {p q : DevPtr B}

lemma pad_of_lt (h : i < n) : pad n g i = g i := if_pos h

lemma pad_congr (h : ∀ i < n, g i = g' i) : pad n g = pad n g' := by
  funext i
  rw [pad, pad]
  split_ifs with hi
  · exact h i hi
  · rfl

lemma slice_of_lt (h : i < n) : m.slice p n i = m.cell (p.add i) := pad_of_lt h

@[simp] lemma pad_pad : pad n (pad n g) = pad n g := pad_congr fun _ hi => pad_of_lt hi

/-- A row is zero behind its end. -/
@[simp] lemma pad_slice : pad n (m.slice p n) = m.slice p n := pad_pad

/-- A part of a row. -/
lemma slice_add {k : ℕ} (h : i + k ≤ n) :
    m.slice (p.add i) k = pad k fun j => m.slice p n (i + j) :=
  pad_congr fun j hj => by rw [slice_of_lt (by omega), DevPtr.add_add]

/-- The front of a row. -/
lemma slice_front {k : ℕ} (h : k ≤ n) : m.slice p k = pad k (m.slice p n) :=
  pad_congr fun _ hj => (slice_of_lt (by omega)).symm

/-- Equal cells of a range. -/
lemma slice_congr {m' : RowMem B V} (h : ∀ i < n, m.cell (p.add i) = m'.cell (q.add i)) :
    m.slice p n = m'.slice q n := pad_congr h

end Rows

variable [DecidableEq B]

/-- `*p = v` -/
def put (m : RowMem B V) (p : DevPtr B) (v : V) : RowMem B V :=
  fun b j => if b = p.block ∧ j = p.off then v else m b j

/-- `p[i] = g(i)` for `i < n`. -/
def fill (m : RowMem B V) (p : DevPtr B) (n : ℕ) (g : ℕ → V) : RowMem B V :=
  fun b j => if b = p.block ∧ p.off ≤ j ∧ j < p.off + n then g (j - p.off) else m b j

variable {m : RowMem B V} {p q : DevPtr B} {n k i : ℕ} {g g' : ℕ → V} {v : V}

lemma cell_put_self : (m.put p v).cell p = v := if_pos ⟨rfl, rfl⟩

lemma cell_put_of_ne (h : q ≠ p) : (m.put p v).cell q = m.cell q :=
  if_neg fun hq => h (DevPtr.mk.injEq _ _ _ _ |>.mpr hq)

lemma cell_put_of_block_ne (h : q.block ≠ p.block) : (m.put p v).cell q = m.cell q :=
  if_neg fun hq => h hq.1

/-- A cell that was written. -/
lemma cell_fill_of_mem (h : q ∈ p.cells n) : (m.fill p n g).cell q = g (q.off - p.off) := if_pos h

/-- What lies outside the range stays. -/
lemma cell_fill_of_notMem (h : q ∉ p.cells n) : (m.fill p n g).cell q = m.cell q := if_neg h

/-- A cell that was written, by its place. -/
@[simp] lemma cell_fill_add (hi : i < n) : (m.fill p n g).cell (p.add i) = g i := by
  rw [cell_fill_of_mem (DevPtr.add_mem_cells.mpr hi), DevPtr.add_off, Nat.add_sub_cancel_left]

/-- Other blocks stay. -/
lemma cell_fill_of_ne (h : q.block ≠ p.block) : (m.fill p n g).cell q = m.cell q :=
  cell_fill_of_notMem (DevPtr.notMem_of_block_ne h)

lemma fill_of_ne {b : B} (h : b ≠ p.block) : m.fill p n g b = m b :=
  funext fun _ => if_neg fun hq => h hq.1

section Rows

variable [Zero V]

/-- A row that was written. -/
lemma slice_fill (hk : k ≤ n) : (m.fill p n g).slice p k = pad k g :=
  pad_congr fun _ hi => cell_fill_add (hi.trans_le hk)

lemma slice_fill_add (hk : i + k ≤ n) :
    (m.fill p n g).slice (p.add i) k = pad k fun j => g (i + j) :=
  pad_congr fun j hj => by rw [DevPtr.add_add, cell_fill_add (by omega)]

/-- A row of another block. -/
lemma slice_fill_of_ne (h : q.block ≠ p.block) : (m.fill p n g).slice q k = m.slice q k :=
  pad_congr fun _ _ => cell_fill_of_ne h

/-- Another row of the block. -/
lemma slice_fill_of_sep (h : q.off + k ≤ p.off ∨ p.off + n ≤ q.off) :
    (m.fill p n g).slice q k = m.slice q k :=
  pad_congr fun j hj => cell_fill_of_notMem fun hmem => by
    obtain ⟨-, hlo, hhi⟩ := hmem
    rw [DevPtr.add_off] at hlo hhi
    omega

/-- One row of several that were written. -/
lemma slice_fill_row {w t : ℕ} {f : ℕ → ℕ → V} (ht : t < n) :
    (m.fill p (n * w) fun k => f (k / w) (k % w)).slice (p.add (t * w)) w = pad w (f t) := by
  refine pad_congr fun j hj => ?_
  rw [DevPtr.add_add, cell_fill_add (rowMajor_lt ht hj), rowMajor_div hj, rowMajor_mod hj]

/-- The rows beside one that was written. -/
lemma slice_fill_of_row_ne {w t t' : ℕ} (h : t' ≠ t) :
    (m.fill (p.add (t * w)) w g).slice (p.add (t' * w)) w = m.slice (p.add (t' * w)) w :=
  pad_congr fun j hj => cell_fill_of_notMem fun hmem => by
    rw [DevPtr.add_add, DevPtr.mem_piece hj] at hmem
    exact h hmem

end Rows

/-- Ranges with the same values. -/
lemma fill_congr (h : ∀ i < n, g i = g' i) : m.fill p n g = m.fill p n g' := by
  refine ext_cell fun q => ?_
  by_cases hq : q ∈ p.cells n
  · obtain ⟨i, hi, rfl⟩ := DevPtr.exists_add_of_mem hq
    rw [cell_fill_add hi, cell_fill_add hi, h i hi]
  · rw [cell_fill_of_notMem hq, cell_fill_of_notMem hq]

@[simp] lemma fill_zero : m.fill p 0 g = m :=
  ext_cell fun _ => cell_fill_of_notMem fun hq => by
    rw [DevPtr.mem_cells] at hq
    omega

/-- A range that is written again. -/
lemma fill_fill : (m.fill p n g).fill p n g' = m.fill p n g' := by
  refine ext_cell fun q => ?_
  by_cases hq : q ∈ p.cells n
  · rw [cell_fill_of_mem hq, cell_fill_of_mem hq]
  · rw [cell_fill_of_notMem hq, cell_fill_of_notMem hq, cell_fill_of_notMem hq]

/-- One cell at a time. -/
lemma fill_one : m.fill p 1 g = m.put p (g 0) := by
  funext b j
  rw [fill, put]
  by_cases h : b = p.block ∧ j = p.off
  · rw [if_pos h, if_pos ⟨h.1, h.2.ge, by omega⟩, h.2, Nat.sub_self]
  · rw [if_neg h, if_neg fun h' => h ⟨h'.1, by omega⟩]

/-- A range and the cell behind it. -/
lemma put_fill (g : ℕ → V) : (m.fill p n g).put (p.add n) (g n) = m.fill p (n + 1) g := by
  funext b j
  rw [fill, put, fill, DevPtr.add_block, DevPtr.add_off]
  by_cases h : b = p.block ∧ j = p.off + n
  · rw [if_pos h, if_pos ⟨h.1, by omega⟩, h.2, Nat.add_sub_cancel_left]
  · rw [if_neg h]
    by_cases h' : b = p.block ∧ p.off ≤ j ∧ j < p.off + n
    · rw [if_pos h', if_pos ⟨h'.1, by omega⟩]
    · rw [if_neg h', if_neg fun h'' => ?_]
      by_cases hj : j = p.off + n
      · exact h ⟨h''.1, hj⟩
      · exact h' ⟨h''.1, by omega⟩

end RowMem

/-! ### Pieces of ranges -/

section Around

open RowMem

variable {B V : Type*} {out out' p : DevPtr B} {n w w' i k : ℕ} {m m' : RowMem B V}
  {a : DevPtr B}

/-- Piece `i` of length `w` of the range at `out`. -/
def piece (out : DevPtr B) (w i : ℕ) : Set (DevPtr B) := (out.add (i * w)).cells w

lemma mem_piece (hk : k < w) : out.add (n * w + k) ∈ piece out w i ↔ n = i :=
  DevPtr.mem_piece hk

lemma exists_of_mem_piece (h : a ∈ piece out w i) : ∃ k < w, a = out.add (i * w + k) := by
  obtain ⟨k, hk, rfl⟩ := DevPtr.exists_add_of_mem h
  exact ⟨k, hk, DevPtr.add_add⟩

lemma eq_of_mem_piece {j : ℕ} (h : a ∈ piece out w i) (h' : a ∈ piece out w j) : i = j := by
  obtain ⟨k, hk, rfl⟩ := exists_of_mem_piece h
  exact (mem_piece hk).mp h'

/-- The memories agree but for what other threads than `i` write. -/
def Around (writes : ℕ → Set (DevPtr B)) (n i : ℕ) (m m' : RowMem B V) : Prop :=
  ∀ a, (∀ j < n, j ≠ i → a ∉ writes j) → m.cell a = m'.cell a

namespace Around

lemma of_block_ne (h : Around (piece out w) n i m m') (ha : a.block ≠ out.block) :
    m.cell a = m'.cell a := h a fun _ _ _ => DevPtr.notMem_of_block_ne ha

lemma own (h : Around (piece out w) n i m m') (hk : k < w) :
    m.cell (out.add (i * w + k)) = m'.cell (out.add (i * w + k)) :=
  h _ fun _ _ hne hj => hne ((mem_piece hk).mp hj).symm

lemma of_block_ne₂ (h : Around (fun j => piece out w j ∪ piece out' w' j) n i m m')
    (ha : a.block ≠ out.block) (ha' : a.block ≠ out'.block) : m.cell a = m'.cell a :=
  h a fun _ _ _ hj => hj.elim (DevPtr.notMem_of_block_ne ha) (DevPtr.notMem_of_block_ne ha')

lemma own_left (h : Around (fun j => piece out w j ∪ piece out' w' j) n i m m')
    (hblock : out'.block ≠ out.block) (hk : k < w) :
    m.cell (out.add (i * w + k)) = m'.cell (out.add (i * w + k)) :=
  h _ fun _ _ hne hj => hj.elim (fun hj => hne ((mem_piece hk).mp hj).symm)
    (DevPtr.notMem_of_block_ne hblock.symm)

lemma own_right (h : Around (fun j => piece out w j ∪ piece out' w' j) n i m m')
    (hblock : out'.block ≠ out.block) (hk : k < w') :
    m.cell (out'.add (i * w' + k)) = m'.cell (out'.add (i * w' + k)) :=
  h _ fun _ _ hne hj => hj.elim (DevPtr.notMem_of_block_ne hblock)
    fun hj => hne ((mem_piece hk).mp hj).symm

end Around

/-- A value that does not depend on other pieces of a range. -/
def ReadsAround {α : Type*} (out : DevPtr B) (w n : ℕ) (f : RowMem B V → ℕ → α) : Prop :=
  ∀ i < n, ∀ m m' : RowMem B V, Around (piece out w) n i m m' → f m i = f m' i

namespace ReadsAround

variable {α β γ : Type*} {f : RowMem B V → ℕ → α} {g : RowMem B V → ℕ → β}

/-- What is read in the cell itself. -/
lemma self : ReadsAround out 1 n fun (m : RowMem B V) i => m.cell (out.add i) :=
  fun i _ _ _ h => by simpa only [Nat.mul_one, Nat.add_zero] using h.own Nat.one_pos

/-- What is read at the same place of a range that is another block or the same range. -/
lemma of_alias (hp : p.block ≠ out.block ∨ p = out) :
    ReadsAround out 1 n fun (m : RowMem B V) i => m.cell (p.add i) := by
  rcases hp with hp | rfl
  · exact fun _ _ _ _ h => h.of_block_ne hp
  · exact self

lemma const (c : ℕ → α) : ReadsAround out w n fun (_ : RowMem B V) i => c i :=
  fun _ _ _ _ _ => rfl

lemma map₂ (hf : ReadsAround out w n f) (hg : ReadsAround out w n g) (h : ℕ → α → β → γ) :
    ReadsAround out w n fun m i => h i (f m i) (g m i) := fun i hi m m' hm =>
  congrArg₂ (h i) (hf i hi m m' hm) (hg i hi m m' hm)

/-- Pieces of single cells are in piece of several. -/
lemma of_cells (hf : ReadsAround out 1 (n * w) f) (hk : k < w) :
    ReadsAround out w n fun m i => f m (i * w + k) := fun i hi m m' hm => by
  refine hf _ (rowMajor_lt hi hk) m m' fun a ha => hm a fun j hj hne hmem => ?_
  obtain ⟨x, hx, rfl⟩ := exists_of_mem_piece hmem
  refine ha (j * w + x) (rowMajor_lt hj hx) (fun h => hne (rowMajor_inj hx hk h).1) ?_
  rw [piece, Nat.mul_one]
  exact ⟨rfl, le_rfl, Nat.lt_succ_self _⟩

end ReadsAround

end Around

/-! ### Loops over ranges -/

section Loops

open RowMem

variable {B V : Type*} [DecidableEq B] {m : RowMem B V}

/-- Threads that each fill two ranges. -/
lemma raceFree_fill_fill {τ : Type*} {l : List τ} {p q : τ → DevPtr B} {n k : τ → ℕ}
    {f g : RowMem B V → τ → ℕ → V}
    (hdisj : ∀ i ∈ l, ∀ j ∈ l, i ≠ j → ∀ a ∈ (p i).cells (n i) ∪ (q i).cells (k i),
      a ∉ (p j).cells (n j) ∪ (q j).cells (k j))
    (hreads : ∀ i ∈ l, ∀ m m' : RowMem B V,
      (∀ a, (∀ j ∈ l, j ≠ i → a ∉ (p j).cells (n j) ∪ (q j).cells (k j)) →
        m.cell a = m'.cell a) →
      (∀ x < n i, f m i x = f m' i x) ∧ ∀ x < k i, g m i x = g m' i x) :
    RaceFree RowMem.cell
      (fun i (m : RowMem B V) => (m.fill (p i) (n i) (f m i)).fill (q i) (k i) (g m i))
      (fun i => (p i).cells (n i) ∪ (q i).cells (k i)) l where
  disjoint := hdisj
  frame i _ m a ha := by
    rw [cell_fill_of_notMem fun h => ha (.inr h), cell_fill_of_notMem fun h => ha (.inl h)]
  reads i hi m m' hm a ha := by
    obtain ⟨hf, hg⟩ := hreads i hi m m' hm
    by_cases hq : a ∈ (q i).cells (k i)
    · obtain ⟨x, hx, rfl⟩ := DevPtr.exists_add_of_mem hq
      rw [cell_fill_add hx, cell_fill_add hx, hg x hx]
    · rw [cell_fill_of_notMem hq, cell_fill_of_notMem hq]
      obtain ⟨x, hx, rfl⟩ := DevPtr.exists_add_of_mem (ha.resolve_right hq)
      rw [cell_fill_add hx, cell_fill_add hx, hf x hx]

variable {out out' : DevPtr B} {n N w w' : ℕ}

/-- **Threads that each write a piece of two ranges**, in any order: both are written. -/
theorem runThreads_fill_fill {order : List ℕ} (horder : order.Perm (List.range N)) (hn : n ≤ N)
    (hblock : w' = 0 ∨ out'.block ≠ out.block) {f g : RowMem B V → ℕ → ℕ → V}
    (hreads : ∀ i < n, ∀ m m' : RowMem B V,
      Around (fun j => piece out w j ∪ piece out' w' j) n i m m' →
      (∀ k < w, f m i k = f m' i k) ∧ ∀ k < w', g m i k = g m' i k) :
    runThreads (fun i m => if i < n then
        (m.fill (out.add (i * w)) w (f m i)).fill (out'.add (i * w')) w' (g m i) else m) order m =
      (m.fill out (n * w) fun k => f m (k / w) (k % w)).fill out' (n * w')
        fun k => g m (k / w') (k % w') := by
  have hmem : ∀ i, i ∈ order.filter (fun i => decide (i < n)) ↔ i < n := fun i =>
    mem_filter_lt horder hn
  have hnd : (order.filter fun i => decide (i < n)).Nodup := nodup_filter_lt horder
  have hcross : ∀ {i j : ℕ} {a : DevPtr B}, a ∈ piece out w i → a ∉ piece out' w' j :=
    fun {i j a} h h' => by
      rcases hblock with rfl | hne
      · obtain ⟨k, hk, -⟩ := exists_of_mem_piece h'
        exact Nat.not_lt_zero k hk
      · exact hne (h'.1.symm.trans h.1)
  have hfree := raceFree_fill_fill (l := order.filter fun i => decide (i < n))
    (p := fun i => out.add (i * w)) (q := fun i => out'.add (i * w')) (n := fun _ => w)
    (k := fun _ => w') (f := f) (g := g)
    (fun i _ j _ hne a ha ha' => by
      rcases ha with ha | ha <;> rcases ha' with ha' | ha'
      · exact hne (eq_of_mem_piece ha ha')
      · exact hcross ha ha'
      · exact hcross ha' ha
      · exact hne (eq_of_mem_piece ha ha'))
    (fun i hi m₁ m₂ hm => hreads i ((hmem i).mp hi) m₁ m₂ fun a ha =>
      hm a fun j hj => ha j ((hmem j).mp hj))
  rw [runThreads_ite (· < n)]
  refine ext_cell fun a => ?_
  by_cases hright : a ∈ out'.cells (n * w')
  · -- a cell of the second range
    obtain ⟨x, hx, rfl⟩ := DevPtr.exists_add_of_mem hright
    have hw : 0 < w' := Nat.pos_of_ne_zero fun h0 => by rw [h0, Nat.mul_zero] at hx; omega
    have hi : x / w' < n := (Nat.div_lt_iff_lt_mul hw).mpr hx
    have hk := Nat.mod_lt x hw
    have hplace : out'.add x = (out'.add (x / w' * w')).add (x % w') := by
      rw [DevPtr.add_add, Nat.div_add_mod']
    rw [hfree.runThreads_of_mem hnd ((hmem _).mpr hi) (.inr (by
      rw [hplace, DevPtr.add_mem_cells]; exact hk)), cell_fill_add hx, hplace, cell_fill_add hk]
  · rw [cell_fill_of_notMem hright]
    by_cases hleft : a ∈ out.cells (n * w)
    · -- a cell of the first range
      obtain ⟨x, hx, rfl⟩ := DevPtr.exists_add_of_mem hleft
      have hw : 0 < w := Nat.pos_of_ne_zero fun h0 => by rw [h0, Nat.mul_zero] at hx; omega
      have hi : x / w < n := (Nat.div_lt_iff_lt_mul hw).mpr hx
      have hk := Nat.mod_lt x hw
      have hplace : out.add x = (out.add (x / w * w)).add (x % w) := by
        rw [DevPtr.add_add, Nat.div_add_mod']
      have hpiece : out.add x ∈ piece out w (x / w) := by
        rw [hplace, piece, DevPtr.add_mem_cells]
        exact hk
      rw [hfree.runThreads_of_mem hnd ((hmem _).mpr hi) (.inl hpiece), cell_fill_add hx,
        cell_fill_of_notMem (hcross hpiece), hplace, cell_fill_add hk]
    · rw [cell_fill_of_notMem hleft]
      refine hfree.runThreads_of_notMem fun i hi ha => ?_
      have hlt := (hmem i).mp hi
      rcases ha with ha | ha
      · obtain ⟨k, hk, rfl⟩ := exists_of_mem_piece ha
        exact hleft (DevPtr.add_mem_cells.mpr (rowMajor_lt hlt hk))
      · obtain ⟨k, hk, rfl⟩ := exists_of_mem_piece ha
        exact hright (DevPtr.add_mem_cells.mpr (rowMajor_lt hlt hk))

/-- Cells that are written one after the other. -/
lemma cell_puts_of_ne {bs : List ℕ} {p : ℕ → DevPtr B} {g : ℕ → V} {a : DevPtr B}
    (h : ∀ b ∈ bs, a ≠ p b) : (bs.foldl (fun m b => m.put (p b) (g b)) m).cell a = m.cell a := by
  induction bs generalizing m with
  | nil => rfl
  | cons b bs ih =>
      rw [List.foldl_cons, ih fun b' hb' => h b' (List.mem_cons_of_mem _ hb'),
        cell_put_of_ne (h b List.mem_cons_self)]

lemma cell_puts {bs : List ℕ} {p : ℕ → DevPtr B} {g : ℕ → V} (hp : Function.Injective p) {b : ℕ}
    (hb : b ∈ bs) : (bs.foldl (fun m b => m.put (p b) (g b)) m).cell (p b) = g b := by
  induction bs generalizing m with
  | nil => exact absurd hb List.not_mem_nil
  | cons b' bs ih =>
      rw [List.foldl_cons]
      by_cases hbs : b ∈ bs
      · exact ih hbs
      · obtain rfl := (List.mem_cons.mp hb).resolve_right hbs
        have hne : ∀ c ∈ bs, p b ≠ p c := fun c hc heq => hbs (by rwa [hp heq])
        rw [cell_puts_of_ne hne, cell_put_self]

/-- Lists of the same cells. -/
lemma puts_congr {bs cs : List ℕ} (h : ∀ b, b ∈ bs ↔ b ∈ cs) {p : ℕ → DevPtr B} {g : ℕ → V}
    (hp : Function.Injective p) :
    bs.foldl (fun m b => m.put (p b) (g b)) m = cs.foldl (fun m b => m.put (p b) (g b)) m := by
  refine ext_cell fun a => ?_
  by_cases ha : ∃ b ∈ bs, a = p b
  · obtain ⟨b, hb, rfl⟩ := ha
    rw [cell_puts hp hb, cell_puts hp ((h b).mp hb)]
  · have hne : ∀ b ∈ bs, a ≠ p b := fun b hb heq => ha ⟨b, hb, heq⟩
    rw [cell_puts_of_ne hne, cell_puts_of_ne fun b hb => hne b ((h b).mpr hb)]

/-- **Threads that each write a column of a range**, in any order: the range is written. -/
theorem runThreads_columns {order : List ℕ} (horder : order.Perm (List.range N)) (hn : n ≤ N)
    {k : ℕ} {f : RowMem B V → ℕ → ℕ → V}
    (hf : ∀ i < n, ∀ m m' : RowMem B V, (∀ a : DevPtr B, a.block ≠ out.block →
      m.cell a = m'.cell a) → ∀ b < k, f m i b = f m' i b) :
    runThreads (fun i m => if i < n then
        (List.range k).foldl (fun m' b => m'.put (out.add (b * n + i)) (f m i b)) m else m) order m =
      m.fill out (k * n) fun x => f m (x % n) (x / n) := by
  have hadd : ∀ {i : ℕ}, i < n → Function.Injective fun b => out.add (b * n + i) :=
    fun hi b b' h => (rowMajor_inj hi hi (Nat.add_left_cancel (congrArg DevPtr.off h))).1
  have hmem : ∀ i, i ∈ order.filter (fun i => decide (i < n)) ↔ i < n := fun i =>
    mem_filter_lt horder hn
  have hfree : RaceFree RowMem.cell (fun i (m : RowMem B V) =>
      (List.range k).foldl (fun m' b => m'.put (out.add (b * n + i)) (f m i b)) m)
      (fun i => {a | ∃ b < k, a = out.add (b * n + i)})
      (order.filter fun i => decide (i < n)) :=
    { disjoint := by
        rintro i hi j hj hne _ ⟨b, -, rfl⟩ ⟨b', -, heq⟩
        exact hne (rowMajor_inj ((hmem i).mp hi) ((hmem j).mp hj)
          (Nat.add_left_cancel (congrArg DevPtr.off heq))).2
      frame := fun i _ m a ha => cell_puts_of_ne fun b hb heq => ha ⟨b, List.mem_range.mp hb, heq⟩
      reads := by
        rintro i hi m m' hm _ ⟨b, hb, rfl⟩
        have hlt := (hmem i).mp hi
        rw [cell_puts (hadd hlt) (List.mem_range.mpr hb), cell_puts (hadd hlt) (List.mem_range.mpr hb)]
        refine hf i hlt m m' (fun a ha => hm a fun j _ _ hj => ?_) b hb
        obtain ⟨b', -, rfl⟩ := hj
        exact ha rfl }
  rw [runThreads_ite (· < n)]
  refine ext_cell fun a => ?_
  by_cases ha : a ∈ out.cells (k * n)
  · obtain ⟨x, hx, rfl⟩ := DevPtr.exists_add_of_mem ha
    have hn0 : 0 < n := Nat.pos_of_ne_zero fun h0 => by rw [h0, Nat.mul_zero] at hx; omega
    have hi := Nat.mod_lt x hn0
    have hb : x / n < k := (Nat.div_lt_iff_lt_mul hn0).mpr hx
    have hplace : out.add x = out.add (x / n * n + x % n) := by rw [Nat.div_add_mod']
    rw [hfree.runThreads_of_mem (nodup_filter_lt horder) ((hmem _).mpr hi) ⟨_, hb, hplace⟩,
      cell_fill_add hx, hplace, cell_puts (hadd hi) (List.mem_range.mpr hb)]
  · rw [cell_fill_of_notMem ha]
    refine hfree.runThreads_of_notMem ?_
    rintro i hi ⟨b, hb, rfl⟩
    exact ha (DevPtr.add_mem_cells.mpr (rowMajor_lt hb ((hmem i).mp hi)))

/-- **Threads that each write a piece of a range**, in any order: the range is written. -/
theorem runThreads_fill {order : List ℕ} (horder : order.Perm (List.range N)) (hn : n ≤ N)
    {f : RowMem B V → ℕ → ℕ → V} (hf : ∀ k < w, ReadsAround out w n fun m i => f m i k) :
    runThreads (fun i m => if i < n then m.fill (out.add (i * w)) w (f m i) else m) order m =
      m.fill out (n * w) fun k => f m (k / w) (k % w) := by
  have hempty : ∀ (j : ℕ) (a : DevPtr B), a ∉ piece out 0 j := fun j a ha => by
    obtain ⟨k, hk, -⟩ := exists_of_mem_piece ha
    exact Nat.not_lt_zero k hk
  have hrun := runThreads_fill_fill (m := m) (w := w) horder hn (.inl rfl) (f := f) (g := f)
    fun i hi m₁ m₂ hm => ⟨fun k hk => hf k hk i hi m₁ m₂ fun a ha => hm a fun j hj hne hmem =>
      hmem.elim (ha j hj hne) (hempty j a), fun k hk => absurd hk (Nat.not_lt_zero k)⟩
  simpa only [Nat.mul_zero, fill_zero] using hrun

/-- **The loop of a block that writes a cell in each round**: the range is written. -/
theorem blockFor_put {o : ThreadOrder} {size start stop : ℕ} (hsize : 0 < size)
    {f : RowMem B V → ℕ → V}
    (hf : ReadsAround (out.add start) 1 (stop - start) fun m k => f m (start + k)) :
    blockFor o size start stop (fun i m => m.put (out.add i) (f m i)) m =
      m.fill (out.add start) (stop - start) fun k => f m (start + k) := by
  obtain ⟨is, hperm, heq⟩ := blockFor_eq o start stop
    (fun i (m : RowMem B V) => m.put (out.add i) (f m i)) m hsize
  have hmem : ∀ i ∈ is, start + (i - start) = i := fun i hi => by
    rw [hperm.mem_iff, List.mem_range'_1] at hi
    omega
  have hrange : (is.map (· - start)).Perm (List.range (stop - start)) := by
    refine (hperm.map _).trans (List.Perm.of_eq ?_)
    rw [List.range'_eq_map_range, List.map_map]
    exact (List.map_congr_left fun k _ => Nat.add_sub_cancel_left start k).trans (List.map_id _)
  have hshift : runThreads (fun i m => m.put (out.add i) (f m i)) is m =
      runThreads (fun k m => if k < stop - start then
        m.fill ((out.add start).add (k * 1)) 1 fun _ => f m (start + k) else m)
        (is.map (· - start)) m := by
    rw [runThreads, runThreads, List.foldl_map]
    refine List.foldl_ext _ _ _ fun m' i hi => ?_
    have hlt : i - start < stop - start := by
      rw [hperm.mem_iff, List.mem_range'_1] at hi
      omega
    rw [if_pos hlt, fill_one, Nat.mul_one, DevPtr.add_add, hmem i hi]
  rw [heq, hshift, runThreads_fill hrange le_rfl fun _ _ => hf, Nat.mul_one]
  exact fill_congr fun k _ => by rw [Nat.div_one]

/-- A loop from the first cell. -/
lemma blockFor_put_zero {o : ThreadOrder} {size : ℕ} (hsize : 0 < size) {f : RowMem B V → ℕ → V}
    (hf : ReadsAround out 1 n f) :
    blockFor o size 0 n (fun i m => m.put (out.add i) (f m i)) m = m.fill out n (f m) := by
  have hshift : ReadsAround (out.add 0) 1 (n - 0) fun m k => f m (0 + k) := by
    simpa only [Nat.zero_add, Nat.sub_zero, DevPtr.add_zero] using hf
  rw [blockFor_put hsize hshift, DevPtr.add_zero, Nat.sub_zero]
  simp only [Nat.zero_add]

/-- A loop that updates each cell of a range. -/
theorem blockFor_update (o : ThreadOrder) {size : ℕ} (hsize : 0 < size) (start stop : ℕ)
    (g : ℕ → V → V) :
    blockFor o size start stop (fun i m => m.put (out.add i) (g i (m.cell (out.add i)))) m =
      m.fill (out.add start) (stop - start) fun k => g (start + k) (m.cell (out.add (start + k))) :=
  blockFor_put hsize fun k hk m₁ m₂ h => by
    have hown : m₁.cell ((out.add start).add k) = m₂.cell ((out.add start).add k) :=
      ReadsAround.self k hk m₁ m₂ h
    rw [DevPtr.add_add] at hown
    exact congrArg (g _) hown

end Loops

end Braidinfer.Lib
