/-
The host's side: which sequences of fires and waits are safe.

The mailbox holds one batch and a fire does not look whether the last one is done, so safety
rests on the host waiting between two fires to the same GPU.  `Waits` states this of a sequence
of host operations, and `Machine.Inv` is what follows in every reachable state.

* `Machine.Inv.step`: every step of the host or of a block keeps the invariant;
* `Machine.Inv.of_run`: so it holds in every state of every run;
* `Machine.Inv.executed_before_fire`: nothing is overwritten before it is executed;
* `Machine.Inv.wait_returns`: once the batch is done, a wait for it goes through;
* `Machine.Inv.exists_step`: the machine does not get stuck before the host is through.
-/
import Braidinfer.Mailbox.WorkerInv

namespace Braidinfer.Mailbox

open Braidinfer.Lib

variable {G : ℕ} {N : Fin G → ℕ}

/-- The batches that `ops` fires to GPU `g`, in order. -/
def firesTo (g : Fin G) : List (HostOp G) → List Batch
  | [] => []
  | .fire g' batch :: ops => if g' = g then batch :: firesTo g ops else firesTo g ops
  | .wait _ :: ops => firesTo g ops

/-- **The discipline**: with unacknowledged batches on the GPUs in `out`, the host never fires
to a GPU before it has waited for the batch before, and it ends with nothing outstanding. -/
def Waits : Finset (Fin G) → List (HostOp G) → Prop
  | out, [] => out = ∅
  | out, .fire g _ :: ops => g ∉ out ∧ Waits (insert g out) ops
  | out, .wait targets :: ops => Waits (out \ targets.toFinset) ops

/-- Host operations that follow the discipline, fire only batches that run to their end, and
use no sequence number twice. -/
structure Disciplined (ops : List (HostOp G)) : Prop where
  waits : Waits ∅ ops
  proper : ∀ g, ∀ batch ∈ firesTo g ops, batch.Proper
  count : ∀ g, (firesTo g ops).length ≤ 2 ^ 32 - 2

lemma Waits.mono {out out' : Finset (Fin G)} {ops : List (HostOp G)} (h : Waits out ops)
    (hsub : out' ⊆ out) : Waits out' ops := by
  induction ops generalizing out out' with
  | nil => exact Finset.subset_empty.mp (hsub.trans (Finset.subset_empty.mpr h))
  | cons op ops ih =>
      cases op with
      | fire g batch =>
          exact ⟨fun hg => h.1 (hsub hg), ih h.2 (Finset.insert_subset_insert g hsub)⟩
      | wait targets => exact ih h (Finset.sdiff_subset_sdiff hsub (Finset.Subset.refl _))

/-- Host operations that leave nothing outstanding behind, whatever comes after them. -/
def Synced (ops : List (HostOp G)) : Prop := ∀ rest, Waits ∅ rest → Waits ∅ (ops ++ rest)

namespace Synced

variable {ops ops' : List (HostOp G)}

lemma nil : Synced ([] : List (HostOp G)) := fun _ h => h

lemma append (h : Synced ops) (h' : Synced ops') : Synced (ops ++ ops') := by
  intro rest hrest
  rw [List.append_assoc]
  exact h _ (h' rest hrest)

lemma flatMap {α : Type*} {l : List α} {f : α → List (HostOp G)} (h : ∀ x ∈ l, Synced (f x)) :
    Synced (l.flatMap f) := by
  induction l with
  | nil => exact nil
  | cons x l ih =>
      rw [List.flatMap_cons]
      exact (h x List.mem_cons_self).append (ih fun y hy => h y (List.mem_cons_of_mem x hy))

/-- A fire and its wait. -/
lemma fire_wait (g : Fin G) (batch : Batch) : Synced [.fire g batch, .wait [g]] := by
  intro rest hrest
  refine ⟨Finset.notMem_empty g, ?_⟩
  show Waits (insert g ∅ \ [g].toFinset) rest
  simpa using hrest

lemma waits (h : Synced ops) : Waits ∅ ops := by
  have := h [] rfl
  rwa [List.append_nil] at this

end Synced

@[simp] lemma firesTo_append (g : Fin G) (ops ops' : List (HostOp G)) :
    firesTo g (ops ++ ops') = firesTo g ops ++ firesTo g ops' := by
  induction ops with
  | nil => rfl
  | cons op ops ih =>
      cases op with
      | fire g' batch =>
          by_cases hg : g' = g
          · simp [firesTo, hg, ih]
          · simp [firesTo, hg, ih]
      | wait targets => simpa [firesTo] using ih

lemma mem_firesTo {g : Fin G} {batch : Batch} {ops : List (HostOp G)} :
    batch ∈ firesTo g ops ↔ .fire g batch ∈ ops := by
  induction ops with
  | nil => simp [firesTo]
  | cons op ops ih =>
      cases op with
      | fire g' batch' =>
          by_cases hg : g' = g
          · simp [firesTo, hg, ih]
          · simp [firesTo, hg, ih, Ne.symm hg]
      | wait targets => simp [firesTo, ih]

/-! ### Patterns of fires and waits -/

section Patterns

variable {α : Type*} {out : Finset (Fin G)} {rest : List (HostOp G)}

/-- Waiting never hurts. -/
lemma Waits.waits (ws : List (List (Fin G))) (h : Waits out rest) :
    Waits out (ws.map .wait ++ rest) := by
  induction ws generalizing out with
  | nil => exact h
  | cons w ws ih => exact (ih h).mono Finset.sdiff_subset

/-- Fires to distinct GPUs with nothing outstanding, some of them waited for at once. -/
lemma Waits.fires {l : List α} (gpu : α → Fin G) (hnd : (l.map gpu).Nodup) (batch : α → Batch)
    (ws : α → List (List (Fin G))) (hdis : ∀ x ∈ l, gpu x ∉ out)
    (hrest : Waits (out ∪ (l.map gpu).toFinset) rest) :
    Waits out ((l.flatMap fun x => .fire (gpu x) (batch x) :: (ws x).map .wait) ++ rest) := by
  induction l generalizing out with
  | nil => simpa using hrest
  | cons x l ih =>
      have hx := List.nodup_cons.mp hnd
      rw [List.flatMap_cons, List.append_assoc, List.cons_append]
      refine ⟨hdis x List.mem_cons_self, Waits.waits (ws x) (ih hx.2 ?_ ?_)⟩
      · intro y hy
        rw [Finset.mem_insert, not_or]
        exact ⟨fun heq => hx.1 (heq ▸ List.mem_map_of_mem hy), hdis y (List.mem_cons_of_mem x hy)⟩
      · refine hrest.mono ?_
        rw [List.map_cons, List.toFinset_cons, Finset.insert_union, Finset.union_insert]

/-- Waiting for one GPU after the other. -/
lemma Waits.each {gs : List (Fin G)} (hrest : Waits (out \ gs.toFinset) rest) :
    Waits out (gs.map (fun g => .wait [g]) ++ rest) := by
  induction gs generalizing out with
  | nil => simpa using hrest
  | cons g gs ih =>
      refine ih (hrest.mono ?_)
      intro g' hg'
      simp only [Finset.mem_sdiff, List.mem_toFinset, List.mem_cons, List.not_mem_nil,
        or_false] at hg' ⊢
      exact ⟨hg'.1.1, not_or.mpr ⟨hg'.1.2, hg'.2⟩⟩

end Patterns

/-- The stores of an operation before its last step. -/
def HostOp.numStores : HostOp G → ℕ
  | .fire _ batch => batch.numWords + 2
  | .wait _ => 0

namespace Machine

variable {ops₀ : List (HostOp G)} {s t : Machine N} {g : Fin G}

/-- The invariant of a machine whose host was given the operations `ops₀`. -/
structure Inv (ops₀ : List (HostOp G)) (s : Machine N) : Prop where
  worker : ∀ g, (s.workers g).Inv
  fired_eq : ∀ g, (s.workers g).fired ++ firesTo g s.ops = firesTo g ops₀
  /-- Where the host need not wait any more, nothing is outstanding. -/
  waits : ∃ out, Waits out s.ops ∧
    ∀ g, g ∉ out → (s.workers g).queue.ack = (s.workers g).fired.length
  /-- The stores made so far of the current fire. -/
  stored : ∀ g batch rest, s.ops = .fire g batch :: rest →
    (s.workers g).queue.HoldsUpTo batch s.stores
  stores_le : s.stores ≤ (s.ops.head?.map HostOp.numStores).getD 0

lemma init_inv (h : Waits ∅ ops₀) : (init ops₀ : Machine N).Inv ops₀ where
  worker := fun _ => Worker.init_inv
  fired_eq := fun _ => rfl
  waits := ⟨∅, h, fun _ _ => rfl⟩
  stored := fun _ _ _ _ => WorkerQueue.holdsUpTo_zero _ _
  stores_le := Nat.zero_le _

@[simp] lemma setWorker_self (w : Worker (N g)) : s.setWorker g w g = w := by
  simp [setWorker]

lemma setWorker_of_ne {g' : Fin G} (h : g' ≠ g) (w : Worker (N g)) :
    s.setWorker g w g' = s.workers g' := by
  simp [setWorker, h]

/-- What the host can do in one step. -/
inductive HostStep (s : Machine N) : Machine N → Prop
  | store {g batch rest} (hops : s.ops = .fire g batch :: rest)
      (hlt : s.stores < batch.numWords + 2) :
      HostStep s ⟨s.ops, s.stores + 1, s.setWorker g ((s.workers g).store batch s.stores)⟩
  | trigger {g batch rest} (hops : s.ops = .fire g batch :: rest)
      (hge : batch.numWords + 2 ≤ s.stores) :
      HostStep s ⟨rest, 0, s.setWorker g ((s.workers g).trigger batch)⟩
  | ret {rest} (hops : s.ops = .wait [] :: rest) : HostStep s ⟨rest, 0, s.workers⟩
  | seen {target targets rest} (hops : s.ops = .wait targets :: rest)
      (hmem : target ∈ targets)
      (hack : (s.workers target).queue.ack = (s.workers target).seqCounter) :
      HostStep s ⟨.wait (targets.erase target) :: rest, 0, s.workers⟩

section Fire

variable {batch : Batch} {rest : List (HostOp G)} (hops : s.ops = .fire g batch :: rest)
  (hle : batch.insts.length ≤ maxBatchInstructions)
include hops hle

/-- A fire looks at nothing: its stores can always be made, -/
lemma hostStep_store (hlt : s.stores < batch.numWords + 2) (target : Fin G) :
    s.hostStep target =
      some ⟨s.ops, s.stores + 1, s.setWorker g ((s.workers g).store batch s.stores)⟩ := by
  simp [hostStep, hops, not_lt.mpr hle, hlt]

/-- and so can the store of `seq_num`. -/
lemma hostStep_trigger (hge : batch.numWords + 2 ≤ s.stores) (target : Fin G) :
    s.hostStep target = some ⟨rest, 0, s.setWorker g ((s.workers g).trigger batch)⟩ := by
  simp [hostStep, hops, not_lt.mpr hle, not_lt.mpr hge]

end Fire

lemma hostStep_cases {target : Fin G} (hs : s.hostStep target = some t) : HostStep s t := by
  rw [hostStep] at hs
  split at hs
  · exact absurd hs (by simp)
  · rename_i g batch rest hops
    simp only at hs
    split at hs
    · exact absurd hs (by simp)
    · split at hs
      · rename_i hlt
        obtain rfl := Option.some.inj hs
        exact .store hops hlt
      · rename_i hge
        obtain rfl := Option.some.inj hs
        exact .trigger hops (not_lt.mp hge)
  · rename_i rest hops
    obtain rfl := Option.some.inj hs
    exact .ret hops
  · rename_i targets rest _ hops
    simp only at hs
    split at hs
    · rename_i hcond
      obtain rfl := Option.some.inj hs
      exact .seen hops hcond.1 hcond.2
    · exact absurd hs (by simp)

namespace Inv

/-- A GPU the host is about to fire to has nothing outstanding. -/
lemma ack_eq_of_fire (h : s.Inv ops₀) {batch : Batch} {rest : List (HostOp G)}
    (hops : s.ops = .fire g batch :: rest) :
    (s.workers g).queue.ack = (s.workers g).fired.length := by
  obtain ⟨out, hw, hout⟩ := h.waits
  rw [hops] at hw
  exact hout g hw.1

lemma stores_le_of (h : s.Inv ops₀) {op : HostOp G} {rest : List (HostOp G)}
    (hops : s.ops = op :: rest) : s.stores ≤ op.numStores := by
  have := h.stores_le
  rwa [hops] at this

lemma fire_mem (h : s.Inv ops₀) {batch : Batch} {rest : List (HostOp G)}
    (hops : s.ops = .fire g batch :: rest) : batch ∈ firesTo g ops₀ := by
  rw [← h.fired_eq g, hops]
  simp [firesTo]

/-- A step that touches worker `g` and fires nothing. -/
lemma replace (h : s.Inv ops₀) {w : Worker (N g)} {k : ℕ} (hw : w.Inv)
    (hfired : w.fired = (s.workers g).fired)
    (hack : (s.workers g).queue.ack = (s.workers g).fired.length →
      w.queue.ack = w.fired.length)
    (hstored : ∀ g' batch rest, s.ops = .fire g' batch :: rest →
      (s.setWorker g w g').queue.HoldsUpTo batch k)
    (hk : k ≤ (s.ops.head?.map HostOp.numStores).getD 0) :
    Inv ops₀ ⟨s.ops, k, s.setWorker g w⟩ := by
  refine ⟨fun g' => ?_, fun g' => ?_, ?_, hstored, hk⟩
  · by_cases hg : g' = g
    · subst hg
      simpa using hw
    · simpa [setWorker_of_ne hg] using h.worker g'
  · by_cases hg : g' = g
    · subst hg
      simpa [hfired] using h.fired_eq g'
    · simpa [setWorker_of_ne hg] using h.fired_eq g'
  · obtain ⟨out, hwaits, hout⟩ := h.waits
    refine ⟨out, hwaits, fun g' hg' => ?_⟩
    by_cases hg : g' = g
    · subst hg
      simpa using hack (hout g' hg')
    · simpa [setWorker_of_ne hg] using hout g' hg'

/-- A step of a block of worker `g`. -/
lemma blockStep (h : s.Inv ops₀) {w : Worker (N g)} {b : Fin (N g + 1)} {j : Fin instSize}
    (hs : (s.workers g).blockStep b j = some w) :
    Inv ops₀ ⟨s.ops, s.stores, s.setWorker g w⟩ := by
  have hinv := h.worker g
  have hframe := Worker.blockStep_frame hs
  have hw := hinv.blockStep hs
  refine h.replace hw hframe.fired_eq (fun hack => ?_) (fun g' batch rest hops => ?_) h.stores_le
  · have hge := hinv.ack_le_of_frame hframe
    have hle := hw.ack_le
    rw [hframe.fired_eq] at hle ⊢
    omega
  · by_cases hg : g' = g
    · subst hg
      rw [setWorker_self, hframe.queue_eq]
      exact h.stored g' batch rest hops
    · rw [setWorker_of_ne hg]
      exact h.stored g' batch rest hops

/-- A store of the current fire. -/
lemma store (h : s.Inv ops₀) {batch : Batch} {rest : List (HostOp G)}
    (hops : s.ops = .fire g batch :: rest) (hlt : s.stores < batch.numWords + 2) :
    Inv ops₀ ⟨s.ops, s.stores + 1, s.setWorker g ((s.workers g).store batch s.stores)⟩ := by
  have hframe : ((s.workers g).store batch s.stores).fired = (s.workers g).fired ∧
      ((s.workers g).store batch s.stores).queue.ack = (s.workers g).queue.ack := by
    rw [Worker.store]
    split
    · exact ⟨rfl, rfl⟩
    · split <;> exact ⟨rfl, rfl⟩
  have hack := h.ack_eq_of_fire hops
  refine h.replace ((h.worker g).store hack batch s.stores) hframe.1 (fun _ => ?_)
    (fun g' batch' rest' hops' => ?_) ?_
  · rw [hframe.1, hframe.2, hack]
  · obtain ⟨⟨rfl, rfl⟩, -⟩ : (g = g' ∧ batch = batch') ∧ rest = rest' := by
      simpa using hops.symm.trans hops'
    rw [setWorker_self]
    exact Worker.Inv.holdsUpTo_store (h.stored g batch rest hops) hlt
  · rw [hops]
    exact hlt

/-- The end of the current fire. -/
lemma trigger (h : s.Inv ops₀) (hd : Disciplined ops₀) {batch : Batch}
    {rest : List (HostOp G)} (hops : s.ops = .fire g batch :: rest)
    (hge : batch.numWords + 2 ≤ s.stores) :
    Inv ops₀ ⟨rest, 0, s.setWorker g ((s.workers g).trigger batch)⟩ := by
  have hack := h.ack_eq_of_fire hops
  have hfired : (s.workers g).fired ++ batch :: firesTo g rest = firesTo g ops₀ := by
    have := h.fired_eq g
    rwa [hops, firesTo, if_pos rfl] at this
  have hlen : (s.workers g).fired.length + 1 < 2 ^ 32 - 1 := by
    have hcount := hd.count g
    rw [← hfired, List.length_append, List.length_cons] at hcount
    omega
  have hq : (s.workers g).queue.Holds batch := by
    have hst := h.stored g batch rest hops
    have hle : s.stores ≤ batch.numWords + 2 := h.stores_le_of hops
    rwa [show s.stores = batch.numWords + 2 by omega] at hst
  have hw := (h.worker g).trigger hack (hd.proper g batch (h.fire_mem hops)) hq hlen
  refine ⟨fun g' => ?_, fun g' => ?_, ?_, fun _ _ _ _ => WorkerQueue.holdsUpTo_zero _ _,
    Nat.zero_le _⟩
  · by_cases hg : g' = g
    · subst hg
      simpa using hw
    · simpa [setWorker_of_ne hg] using h.worker g'
  · by_cases hg : g' = g
    · subst hg
      simpa [Worker.trigger] using hfired
    · have := h.fired_eq g'
      rw [hops, firesTo, if_neg (Ne.symm hg)] at this
      simpa [setWorker_of_ne hg] using this
  · obtain ⟨out, hwaits, hout⟩ := h.waits
    rw [hops] at hwaits
    refine ⟨insert g out, hwaits.2, fun g' hg' => ?_⟩
    rw [Finset.mem_insert, not_or] at hg'
    simpa [setWorker_of_ne hg'.1] using hout g' hg'.2

/-- The host goes on to operations that fire the same batches. -/
lemma goOn (h : s.Inv ops₀) {ops : List (HostOp G)}
    (hfires : ∀ g, firesTo g ops = firesTo g s.ops) {out : Finset (Fin G)} (hwaits : Waits out ops)
    (hout : ∀ g, g ∉ out → (s.workers g).queue.ack = (s.workers g).fired.length) :
    Inv ops₀ ⟨ops, 0, s.workers⟩ where
  worker := h.worker
  fired_eq g := by rw [hfires g, h.fired_eq g]
  waits := ⟨out, hwaits, hout⟩
  stored _ _ _ _ := WorkerQueue.holdsUpTo_zero _ _
  stores_le := Nat.zero_le _

/-- A wait has seen all its targets. -/
lemma ret (h : s.Inv ops₀) {rest : List (HostOp G)} (hops : s.ops = .wait [] :: rest) :
    Inv ops₀ ⟨rest, 0, s.workers⟩ := by
  obtain ⟨out, hwaits, hout⟩ := h.waits
  rw [hops] at hwaits
  exact h.goOn (fun g => by rw [hops, firesTo]) (by simpa [Waits] using hwaits) hout

/-- A wait sees that one of its targets is done. -/
lemma seen (h : s.Inv ops₀) {target : Fin G} {targets : List (Fin G)}
    {rest : List (HostOp G)} (hops : s.ops = .wait targets :: rest)
    (hack : (s.workers target).queue.ack = (s.workers target).seqCounter) :
    Inv ops₀ ⟨.wait (targets.erase target) :: rest, 0, s.workers⟩ := by
  obtain ⟨out, hwaits, hout⟩ := h.waits
  rw [hops] at hwaits
  have hwaits' : Waits (out \ targets.toFinset) rest := hwaits
  have hsub : out.erase target \ (targets.erase target).toFinset ⊆ out \ targets.toFinset := by
    intro g hg
    rw [Finset.mem_sdiff, Finset.mem_erase, List.mem_toFinset] at hg
    obtain ⟨⟨hne, hgout⟩, hnot⟩ := hg
    rw [Finset.mem_sdiff, List.mem_toFinset]
    exact ⟨hgout, fun hmem => hnot ((List.mem_erase_of_ne hne).mpr hmem)⟩
  refine h.goOn (fun g => by rw [hops, firesTo, firesTo]) (hwaits'.mono hsub) fun g hg => ?_
  by_cases hgt : g = target
  · subst hgt
    rw [hack, (h.worker g).seqCounter_eq]
  · exact hout g fun hmem => hg (Finset.mem_erase.mpr ⟨hgt, hmem⟩)

/-- **Every step keeps the invariant.** -/
theorem step (h : s.Inv ops₀) (hd : Disciplined ops₀) {a : Act N} (hs : s.step a = some t) :
    t.Inv ops₀ := by
  cases a with
  | host target =>
      cases hostStep_cases hs with
      | store hops hlt => exact h.store hops hlt
      | trigger hops hge => exact h.trigger hd hops hge
      | ret hops => exact h.ret hops
      | seen hops _ hack => exact h.seen hops hack
  | block g b j =>
      obtain ⟨w, hw, rfl⟩ := Option.map_eq_some_iff.mp hs
      exact h.blockStep hw

/-- **The invariant holds in every state of every run.** -/
theorem of_run (hd : Disciplined ops₀) {as : List (Act N)} (hr : Run Step (init ops₀) as s) :
    s.Inv ops₀ :=
  hr.invariant (fun _ _ _ h hs => h.step hd hs) (init_inv hd.waits)

/-! ### What the invariant says -/

/-- **Nothing is overwritten before it is executed**: when the host is at a fire to `g`, every
block of `g` has executed every batch fired to it before. -/
theorem executed_before_fire (h : s.Inv ops₀) {batch : Batch} {rest : List (HostOp G)}
    (hops : s.ops = .fire g batch :: rest) (b : Fin (N g + 1)) :
    ((s.workers g).blocks b).log = (s.workers g).fired.flatMap Batch.entries := by
  rw [← logAt_length]
  exact (h.worker g).log_eq_of_ack (h.ack_eq_of_fire hops) b

lemma ack_eq_of_done (h : s.Inv ops₀) (hops : s.ops = []) (g : Fin G) :
    (s.workers g).queue.ack = (s.workers g).fired.length := by
  obtain ⟨out, hw, hout⟩ := h.waits
  rw [hops] at hw
  obtain rfl : out = ∅ := hw
  exact hout g (Finset.notMem_empty g)

lemma fired_eq_of_done (h : s.Inv ops₀) (hops : s.ops = []) (g : Fin G) :
    (s.workers g).fired = firesTo g ops₀ := by
  have hfired := h.fired_eq g
  rwa [hops, firesTo, List.append_nil] at hfired

/-- **At the end of the host's operations** every block has executed everything fired to its
worker. -/
theorem log_eq_of_done (h : s.Inv ops₀) (hops : s.ops = []) (b : Fin (N g + 1)) :
    ((s.workers g).blocks b).log = (firesTo g ops₀).flatMap Batch.entries := by
  rw [(h.worker g).log_eq_of_ack (h.ack_eq_of_done hops g) b, logAt_length,
    h.fired_eq_of_done hops g]

/-- **A wait returns once the batch is done**: when block 0 has finished the last batch fired
to `g`, the poll of a wait for it succeeds. -/
theorem wait_returns (h : s.Inv ops₀) {targets : List (Fin G)} {rest : List (HostOp G)}
    (hops : s.ops = .wait targets :: rest) (hg : g ∈ targets)
    (hdone : ((s.workers g).blocks 0).lastSeq = (s.workers g).fired.length) :
    s.step (.host g) = some ⟨.wait (targets.erase g) :: rest, 0, s.workers⟩ := by
  have hack : (s.workers g).queue.ack = (s.workers g).seqCounter := by
    rw [(h.worker g).ack_eq, hdone, (h.worker g).seqCounter_eq]
  show s.hostStep g = _
  rw [hostStep, hops]
  cases targets with
  | nil => exact absurd hg (List.not_mem_nil)
  | cons g' ts =>
      simp only
      rw [if_pos ⟨hg, hack⟩]

/-- **The machine does not get stuck** before the host is through. -/
theorem exists_step (h : s.Inv ops₀) (hd : Disciplined ops₀) (hG : 0 < G) (hne : s.ops ≠ []) :
    ∃ a t, s.step a = some t := by
  cases hops : s.ops with
  | nil => exact absurd hops hne
  | cons op rest =>
      cases op with
      | fire g batch =>
          have hle := (hd.proper g batch (h.fire_mem hops)).length_le
          by_cases hlt : s.stores < batch.numWords + 2
          · exact ⟨.host g, _, hostStep_store hops hle hlt g⟩
          · exact ⟨.host g, _, hostStep_trigger hops hle (not_lt.mp hlt) g⟩
      | wait targets =>
          cases targets with
          | nil =>
              refine ⟨.host ⟨0, hG⟩, ⟨rest, 0, s.workers⟩, ?_⟩
              show s.hostStep ⟨0, hG⟩ = _
              rw [hostStep, hops]
          | cons g ts =>
              rcases (h.worker g).ack_le.lt_or_eq with hlt | heq
              · obtain ⟨b, j, hsome⟩ := (h.worker g).exists_blockStep hlt
                obtain ⟨w, hw⟩ := Option.isSome_iff_exists.mp hsome
                refine ⟨.block g b j, ⟨s.ops, s.stores, s.setWorker g w⟩, ?_⟩
                show Option.map _ _ = _
                rw [hw]
                rfl
              · exact ⟨.host g, _, h.wait_returns hops (List.mem_cons_self)
                  ((h.worker g).ack_eq ▸ heq)⟩

end Inv

/-! ### The host alone -/

section Alone

variable {batch : Batch} {rest : List (HostOp G)}

/-- The host can make any number of stores of a fire while no block moves. -/
lemma run_stores (hops : s.ops = .fire g batch :: rest) (hzero : s.stores = 0)
    (hle : batch.insts.length ≤ maxBatchInstructions) {k : ℕ} (hk : k ≤ batch.numWords + 2) :
    ∃ (as : List (Act N)) (t : Machine N), Run Step s as t ∧ t.ops = s.ops ∧ t.stores = k ∧
      (∀ g', (t.workers g').blocks = (s.workers g').blocks) ∧
      (t.workers g).fired = (s.workers g).fired ∧
      (t.workers g).seqCounter = (s.workers g).seqCounter ∧
      (t.workers g).queue.HoldsUpTo batch k := by
  induction k with
  | zero =>
      exact ⟨[], s, .nil, rfl, hzero, fun _ => rfl, rfl, rfl, WorkerQueue.holdsUpTo_zero _ _⟩
  | succ k ih =>
      obtain ⟨as, t, hr, htops, hstores, hblocks, hfired, hseq, hholds⟩ := ih (by omega)
      have hlt : t.stores < batch.numWords + 2 := by omega
      have hstep : t.Step (.host g)
          ⟨t.ops, t.stores + 1, t.setWorker g ((t.workers g).store batch t.stores)⟩ :=
        hostStep_store (htops.trans hops) hle hlt g
      have hframe : ((t.workers g).store batch t.stores).fired = (t.workers g).fired ∧
          ((t.workers g).store batch t.stores).seqCounter = (t.workers g).seqCounter ∧
          ((t.workers g).store batch t.stores).blocks = (t.workers g).blocks := by
        rw [Worker.store]
        split
        · exact ⟨rfl, rfl, rfl⟩
        · split <;> exact ⟨rfl, rfl, rfl⟩
      refine ⟨_, _, hr.snoc hstep, htops, congrArg (· + 1) hstores, fun g' => ?_, ?_, ?_, ?_⟩
      · show (t.setWorker g _ g').blocks = _
        rw [← hblocks g']
        by_cases hg : g' = g
        · subst hg
          rw [setWorker_self, hframe.2.2]
        · rw [setWorker_of_ne hg]
      · show (t.setWorker g _ g).fired = _
        rw [setWorker_self, hframe.1, hfired]
      · show (t.setWorker g _ g).seqCounter = _
        rw [setWorker_self, hframe.2.1, hseq]
      · show (t.setWorker g _ g).queue.HoldsUpTo batch (k + 1)
        rw [setWorker_self, hstores]
        exact Worker.Inv.holdsUpTo_store hholds (hstores ▸ hlt)

/-- The host can fire a batch while no block moves. -/
lemma run_fire (hops : s.ops = .fire g batch :: rest) (hzero : s.stores = 0)
    (hle : batch.insts.length ≤ maxBatchInstructions) :
    ∃ (as : List (Act N)) (t : Machine N), Run Step s as t ∧ t.ops = rest ∧ t.stores = 0 ∧
      (∀ g', (t.workers g').blocks = (s.workers g').blocks) ∧
      (t.workers g).fired = (s.workers g).fired ++ [batch] ∧
      (t.workers g).queue.seqNum = nextSeq (s.workers g).seqCounter := by
  obtain ⟨as, t, hr, htops, hstores, hblocks, hfired, hseq, -⟩ :=
    run_stores hops hzero hle le_rfl
  have hstep : t.Step (.host g) ⟨rest, 0, t.setWorker g ((t.workers g).trigger batch)⟩ :=
    hostStep_trigger (htops.trans hops) hle hstores.ge g
  refine ⟨_, _, hr.snoc hstep, rfl, rfl, fun g' => ?_, ?_, ?_⟩
  · show (t.setWorker g _ g').blocks = _
    rw [← hblocks g']
    by_cases hg : g' = g
    · subst hg
      rw [setWorker_self]
      rfl
    · rw [setWorker_of_ne hg]
  · show (t.setWorker g _ g).fired = _
    rw [setWorker_self, ← hfired]
    rfl
  · show (t.setWorker g _ g).queue.seqNum = _
    rw [setWorker_self, ← hseq]
    rfl

end Alone

end Machine

end Braidinfer.Mailbox
