/-
The tracer (`Tracer` in `tracer.rs`): captures into pinned shadows, drains and reads.

A shadow is reused when it is long enough, whatever its length, and `read` and `drain` take all of
it; so a shorter payload leaves the end of the one before it.  A capture is a copy on a stream that
lands at some time before the next drain, while `insert_shadow` writes at once.

* `Tracer.capture`, `Tracer.insertShadow`, `Tracer.drain`, `Tracer.read`: the calls;
* `Tracer.land`: a copy lands, the first that is pending on its stream;
* `Settles`, `Inv`: what a shadow holds once its copies have landed;
* `read_of_run`: **after a drain every probe reads as its last payload, and the sink has got exactly
  its elements**, over all runs in which no payload is shorter than the shadow of its name and no
  copy overtakes another into it;
* `read_stale`: a payload of two floats and then one of one float.
-/
import Braidinfer.Lib.Run
import Braidinfer.Trace.Sink

namespace Braidinfer.Trace

open Braidinfer.Lib

/-! ### The tracer -/

/-- `ProbeFilter`; a regular expression is a predicate on names. -/
inductive ProbeFilter
  | none
  | all
  | regex (re : String → Bool)

/-- `ProbeFilter::is_none` -/
def ProbeFilter.isNone : ProbeFilter → Bool
  | .none => true
  | _ => false

/-- `ProbeFilter::matches` -/
def ProbeFilter.matches : ProbeFilter → String → Bool
  | .none, _ => false
  | .all, _ => true
  | .regex re, name => re name

/-- A pinned buffer: which allocation it is, and its bytes. -/
structure PinnedBuffer where
  alloc : ℕ
  bytes : List UInt8
deriving DecidableEq, Repr

/-- `PinnedBuffer::len` -/
def PinnedBuffer.len (s : PinnedBuffer) : ℕ := s.bytes.length

/-- Overwrite the beginning of a buffer. -/
def PinnedBuffer.write (s : PinnedBuffer) (payload : List UInt8) : PinnedBuffer :=
  { s with bytes := payload ++ s.bytes.drop payload.length }

/-- A `hipMemcpyAsync` that has not run yet. -/
structure Copy where
  stream : ℕ
  dst : ℕ
  payload : List UInt8
deriving DecidableEq, Repr

/-- `Tracer`, with the copies pending on its streams and the number of allocations so far. -/
structure Tracer where
  /-- which streams are not null -/
  streams : List Bool
  shadows : String → Option PinnedBuffer
  sink : Option TraceSink
  filter : ProbeFilter
  allocs : ℕ
  pending : List Copy

/-- What the HIP calls of a capture do. -/
inductive Hip
  | ok
  | allocFails
  | copyFails
deriving DecidableEq, Repr

namespace Tracer

variable (junk : ℕ → ℕ → UInt8)

/-- A new tracer. -/
def new (streams : List Bool) (filter : ProbeFilter) (sink : Option TraceSink) : Tracer :=
  { streams, shadows := fun _ => none, sink, filter, allocs := 0, pending := [] }

/-- A shadow of `len` bytes, its contents undefined, under a name. -/
def allocShadow (t : Tracer) (name : String) (len : ℕ) : Tracer × PinnedBuffer :=
  let buf : PinnedBuffer := ⟨t.allocs, (List.range len).map (junk t.allocs)⟩
  ({ t with shadows := Function.update t.shadows name (some buf), allocs := t.allocs + 1 }, buf)

/-- The `match` on the shadow of a name: the one there is, if it is long enough, or a new one. -/
def shadowFor (t : Tracer) (name : String) (len : ℕ) (allocOk : Bool) :
    Option (Tracer × PinnedBuffer) :=
  match t.shadows name with
  | some s =>
      if len ≤ s.len then some (t, s)
      else if allocOk then some (t.allocShadow junk name len) else none
  | none => if allocOk then some (t.allocShadow junk name len) else none

/-- `Tracer::capture` of a payload; the flag says whether it returned `Ok`. -/
def capture (t : Tracer) (gpuIdx : ℕ) (name : String) (payload : List UInt8) (hip : Hip) :
    Tracer × Bool :=
  if t.filter.isNone then (t, true)
  else if ¬ t.filter.matches name then (t, true)
  else
    match t.streams[gpuIdx]? with
    | none => (t, false)
    | some false => (t, false)
    | some true =>
        match t.shadowFor junk name payload.length (hip ≠ .allocFails) with
        | none => (t, false)
        | some (t', shadow) =>
            if hip = .copyFails then (t', false)
            else ({ t' with pending := t'.pending ++ [⟨gpuIdx, shadow.alloc, payload⟩] }, true)

/-- `Tracer::insert_shadow` -/
def insertShadow (t : Tracer) (name : String) (bytes : List UInt8) (allocOk : Bool) : Tracer :=
  match t.shadowFor junk name bytes.length allocOk with
  | none => t
  | some (t', shadow) =>
      { t' with shadows := Function.update t'.shadows name (some (shadow.write bytes)) }

/-- Copy `i` lands, the first of its stream. -/
def land (t : Tracer) (i : ℕ) : Option Tracer :=
  match t.pending[i]? with
  | none => none
  | some c =>
      if (t.pending.take i).all (fun c' => c'.stream ≠ c.stream) then
        some { t with
          pending := t.pending.eraseIdx i
          shadows := fun name => (t.shadows name).map fun s =>
            if s.alloc = c.dst then s.write c.payload else s }
      else none

/-- What `drain` writes for the shadow of a name. -/
def writeShadow (t : Tracer) (sink : TraceSink) (name : String) : TraceSink :=
  match t.shadows name with
  | some s => if s.len % 4 = 0 then sink.writeCheckpoint name (unpackFloats s.bytes) else sink
  | none => sink

/-- `Tracer::drain`, after the streams are done; `order` is the order of the hash map. -/
def drain (t : Tracer) (order : List String) : Tracer :=
  if t.filter.isNone then t else { t with sink := t.sink.map fun s => order.foldl t.writeShadow s }

/-- `Tracer::read` -/
def read (t : Tracer) (name : String) : Option (List UInt8) := (t.shadows name).map (·.bytes)

end Tracer

/-! ### Runs -/

/-- What happens to a tracer. -/
inductive Event
  | capture (gpuIdx : ℕ) (name : String) (payload : List UInt8) (hip : Hip)
  | insertShadow (name : String) (bytes : List UInt8) (allocOk : Bool)
  | land (i : ℕ)
  | drain (order : List String)

/-- The names of the shadows, in some order. -/
def Tracer.Keys (t : Tracer) (order : List String) : Prop :=
  order.Nodup ∧ ∀ name, name ∈ order ↔ (t.shadows name).isSome

/-- One step.  A drain waits for the streams. -/
def Tracer.Step (junk : ℕ → ℕ → UInt8) (t : Tracer) : Event → Tracer → Prop
  | .capture gpuIdx name payload hip, t' => t' = (t.capture junk gpuIdx name payload hip).1
  | .insertShadow name bytes allocOk, t' => t' = t.insertShadow junk name bytes allocOk
  | .land i, t' => t.land i = some t'
  | .drain order, t' => t.pending = [] ∧ t.Keys order ∧ t' = t.drain order

/-- The last payload captured or inserted under each name. -/
abbrev Latest := String → Option (List UInt8)

/-- The record of a step: a capture counts if it returned `Ok`. -/
def Latest.next (junk : ℕ → ℕ → UInt8) (t : Tracer) (e : Event) (latest : Latest) : Latest :=
  match e with
  | .capture gpuIdx name payload hip =>
      if (t.capture junk gpuIdx name payload hip).2 then Function.update latest name (some payload)
      else latest
  | .insertShadow name bytes _ => Function.update latest name (some bytes)
  | .land _ | .drain _ => latest

/-- A step, with the record of the run. -/
def Step (junk : ℕ → ℕ → UInt8) : Tracer × Latest → Event → Tracer × Latest → Prop :=
  tracked (fun t e _ latest => latest.next junk t e) (Tracer.Step junk)

/-- The filter matches what is captured. -/
def Event.Matches (filter : ProbeFilter) : Event → Prop
  | .capture _ name _ _ => filter.matches name = true
  | _ => True

/-- The condition on a step: a payload is not shorter than the shadow of its name; a copy into a
shadow that is reused is on the stream of those pending into it, and nothing is pending into one
that is written at once; and no HIP call fails where a new shadow is needed. -/
def Tracer.Ready (t : Tracer) : Event → Prop
  | .capture gpuIdx name payload hip =>
      match t.shadows name with
      | some s => s.len ≤ payload.length ∧ (hip = .copyFails → s.len = payload.length) ∧
          (s.len = payload.length → ∀ c ∈ t.pending, c.dst = s.alloc → c.stream = gpuIdx)
      | none => hip ≠ .copyFails
  | .insertShadow name bytes allocOk =>
      match t.shadows name with
      | some s => s.len ≤ bytes.length ∧ (s.len < bytes.length → allocOk = true) ∧
          (s.len = bytes.length → ∀ c ∈ t.pending, c.dst ≠ s.alloc)
      | none => allocOk = true
  | .land _ | .drain _ => True

/-! ### What a shadow holds -/

section Settle

variable {cs cs' : List Copy} {s : PinnedBuffer} {p : List UInt8}

/-- The pending copies into an allocation. -/
def copiesTo (cs : List Copy) (a : ℕ) : List Copy := cs.filter fun c => c.dst = a

/-- Once its copies have landed the buffer holds `p`: they are as long as it, on one stream, and the
last of them is `p`. -/
structure Settles (cs : List Copy) (s : PinnedBuffer) (p : List UInt8) : Prop where
  length : s.bytes.length = p.length
  sizes : ∀ c ∈ copiesTo cs s.alloc, c.payload.length = p.length
  stream : ∀ c ∈ copiesTo cs s.alloc, ∀ c' ∈ copiesTo cs s.alloc, c.stream = c'.stream
  last : ((copiesTo cs s.alloc).getLast?.map Copy.payload).getD s.bytes = p

/-- With nothing pending it holds `p`. -/
lemma Settles.bytes_eq (h : Settles [] s p) : s.bytes = p := h.last

lemma settles_congr (hcs : copiesTo cs s.alloc = copiesTo cs' s.alloc) (h : Settles cs s p) :
    Settles cs' s p := by
  obtain ⟨hlength, hsizes, hstream, hlast⟩ := h
  rw [hcs] at hsizes hstream hlast
  exact ⟨hlength, hsizes, hstream, hlast⟩

/-- Copies into other allocations do not matter. -/
lemma settles_append_of_ne {extra : List Copy} (hne : ∀ c ∈ extra, c.dst ≠ s.alloc)
    (h : Settles cs s p) : Settles (cs ++ extra) s p := by
  refine settles_congr ?_ h
  have hnone : copiesTo extra s.alloc = [] :=
    List.filter_eq_nil_iff.mpr fun c hc => by simpa using hne c hc
  rw [copiesTo, copiesTo, List.filter_append, ← copiesTo, ← copiesTo, hnone, List.append_nil]

/-- One more copy into a buffer of its length, on the stream of those before it. -/
lemma settles_push {c : Copy} (hdst : c.dst = s.alloc) (hlen : s.bytes.length = c.payload.length)
    (hsizes : ∀ c' ∈ copiesTo cs s.alloc, c'.payload.length = c.payload.length)
    (hstream : ∀ c' ∈ copiesTo cs s.alloc, c'.stream = c.stream) :
    Settles (cs ++ [c]) s c.payload := by
  have hcs : copiesTo (cs ++ [c]) s.alloc = copiesTo cs s.alloc ++ [c] := by
    rw [copiesTo, List.filter_append, ← copiesTo, List.filter_singleton]
    simp [hdst]
  have hmem : ∀ c' ∈ copiesTo (cs ++ [c]) s.alloc, c' ∈ copiesTo cs s.alloc ∨ c' = c := by
    intro c' hc'
    rw [hcs, List.mem_append, List.mem_singleton] at hc'
    exact hc'
  have hone : ∀ c' ∈ copiesTo (cs ++ [c]) s.alloc, c'.stream = c.stream := fun c' hc' =>
    (hmem c' hc').elim (hstream c') fun h => congrArg Copy.stream h
  refine ⟨hlen, fun c' hc' => ?_, fun c' hc' c'' hc'' => ?_, ?_⟩
  · exact (hmem c' hc').elim (hsizes c') fun h => congrArg (fun c => c.payload.length) h
  · rw [hone c' hc', hone c'' hc'']
  · rw [hcs, List.getLast?_concat]
    rfl

/-- **A copy lands**, the first of its stream.  It is then the first into its buffer. -/
lemma Settles.land {l r : List Copy} {c : Copy} (h : Settles (l ++ c :: r) s p)
    (hfirst : ∀ c' ∈ l, c'.stream ≠ c.stream) :
    Settles (l ++ r) (if s.alloc = c.dst then s.write c.payload else s) p := by
  by_cases hdst : s.alloc = c.dst
  · have hc : copiesTo (c :: r) s.alloc = c :: copiesTo r s.alloc :=
      List.filter_cons_of_pos (by simpa using hdst.symm)
    have hl : copiesTo l s.alloc = [] := by
      refine List.eq_nil_iff_forall_not_mem.mpr fun c' hc' => ?_
      have hin : ∀ c'' ∈ c :: copiesTo l s.alloc, c'' ∈ copiesTo (l ++ c :: r) s.alloc := by
        intro c'' hc''
        rw [copiesTo, List.filter_append, ← copiesTo, ← copiesTo, hc]
        simp only [List.mem_cons, List.mem_append] at hc'' ⊢
        tauto
      exact hfirst c' (List.mem_filter.mp hc').1
        (h.stream c' (hin c' (List.mem_cons_of_mem _ hc')) c (hin c List.mem_cons_self))
    have hbefore : copiesTo (l ++ c :: r) s.alloc = c :: copiesTo r s.alloc := by
      rw [copiesTo, List.filter_append, ← copiesTo, ← copiesTo, hl, hc, List.nil_append]
    have hafter : copiesTo (l ++ r) s.alloc = copiesTo r s.alloc := by
      rw [copiesTo, List.filter_append, ← copiesTo, ← copiesTo, hl, List.nil_append]
    obtain ⟨hlength, hsizes, hstream, hlast⟩ := h
    rw [hbefore] at hsizes hstream hlast
    have hpayload : c.payload.length = p.length := hsizes c List.mem_cons_self
    have hwrite : (s.write c.payload).bytes = c.payload := by
      rw [PinnedBuffer.write, List.drop_of_length_le (by omega), List.append_nil]
    rw [if_pos hdst]
    refine ⟨?_, ?_, ?_, ?_⟩
    · rw [hwrite, hpayload]
    · exact fun c' hc' => hsizes c' (List.mem_cons_of_mem _ (hafter ▸ hc'))
    · exact fun c' hc' c'' hc'' => hstream c' (List.mem_cons_of_mem _ (hafter ▸ hc')) c''
        (List.mem_cons_of_mem _ (hafter ▸ hc''))
    · change ((copiesTo (l ++ r) s.alloc).getLast?.map Copy.payload).getD _ = p
      rw [hafter, hwrite, ← hlast, List.getLast?_cons]
      cases (copiesTo r s.alloc).getLast? <;> rfl
  · rw [if_neg hdst]
    refine settles_congr ?_ h
    rw [copiesTo, copiesTo, List.filter_append, List.filter_append,
      List.filter_cons_of_neg (by simpa using Ne.symm hdst)]

end Settle

/-! ### The invariant -/

/-- The shadows are distinct allocations, there is one for every name of the record, and once the
copies have landed it holds the payload of the record. -/
structure Inv (t : Tracer) (latest : Latest) : Prop where
  allocated : ∀ name s, t.shadows name = some s → s.alloc < t.allocs
  pending : ∀ c ∈ t.pending, c.dst < t.allocs
  distinct : ∀ name name' s s', t.shadows name = some s → t.shadows name' = some s' →
    s.alloc = s'.alloc → name = name'
  none_iff : ∀ name, t.shadows name = none ↔ latest name = none
  settles : ∀ name s p, t.shadows name = some s → latest name = some p → Settles t.pending s p

section Invariant

variable {junk : ℕ → ℕ → UInt8} {t t' : Tracer} {latest : Latest} {name : String} {p : List UInt8}
  {s : PinnedBuffer} {extra : List Copy}

lemma Inv.new (streams : List Bool) (filter : ProbeFilter) (sink : Option TraceSink) :
    Inv (Tracer.new streams filter sink) fun _ => none where
  allocated _ _ h := nomatch h
  pending _ h := nomatch h
  distinct _ _ _ _ h := nomatch h
  none_iff _ := ⟨fun _ => rfl, fun _ => rfl⟩
  settles _ _ _ h := nomatch h

/-- **A payload is put into the shadow of a name**: of the others nothing changes. -/
lemma Inv.put (hinv : Inv t latest)
    (hshadows : t'.shadows = Function.update t.shadows name (some s))
    (hpending : t'.pending = t.pending ++ extra) (hextra : ∀ c ∈ extra, c.dst = s.alloc)
    (hallocs : t.allocs ≤ t'.allocs) (hs : s.alloc < t'.allocs)
    (hothers : ∀ name' s', name' ≠ name → t.shadows name' = some s' → s'.alloc ≠ s.alloc)
    (hsettles : Settles t'.pending s p) : Inv t' (Function.update latest name (some p)) := by
  have hself : t'.shadows name = some s := by rw [hshadows, Function.update_self]
  have hother : ∀ name' ≠ name, t'.shadows name' = t.shadows name' := fun name' hne => by
    rw [hshadows, Function.update_of_ne hne]
  refine ⟨fun name' s' h => ?_, fun c hc => ?_, fun n n' u u' hn hn' halloc => ?_, fun name' => ?_,
    fun name' s' p' h hp => ?_⟩
  · by_cases hname : name' = name
    · rw [hname, hself] at h
      rwa [← Option.some.inj h]
    · rw [hother name' hname] at h
      exact lt_of_lt_of_le (hinv.allocated name' s' h) hallocs
  · rw [hpending] at hc
    rcases List.mem_append.mp hc with hc | hc
    · exact lt_of_lt_of_le (hinv.pending c hc) hallocs
    · rwa [hextra c hc]
  · by_cases h : n = name <;> by_cases h' : n' = name
    · rw [h, h']
    · rw [h, hself] at hn
      rw [hother n' h'] at hn'
      exact absurd (by rw [← halloc, Option.some.inj hn]) (hothers n' u' h' hn')
    · rw [h', hself] at hn'
      rw [hother n h] at hn
      exact absurd (by rw [halloc, Option.some.inj hn']) (hothers n u h hn)
    · rw [hother n h] at hn
      rw [hother n' h'] at hn'
      exact hinv.distinct n n' u u' hn hn' halloc
  · by_cases hname : name' = name
    · rw [hname, hself, Function.update_self]
      exact ⟨fun h => (nomatch h), fun h => (nomatch h)⟩
    · rw [hother name' hname, Function.update_of_ne hname]
      exact hinv.none_iff name'
  · by_cases hname : name' = name
    · rw [hname, hself] at h
      rw [hname, Function.update_self] at hp
      rwa [← Option.some.inj h, ← Option.some.inj hp]
    · rw [hother name' hname] at h
      rw [Function.update_of_ne hname] at hp
      rw [hpending]
      exact settles_append_of_ne (fun c hc => by
        rw [hextra c hc]
        exact (hothers name' s' hname h).symm) (hinv.settles name' s' p' h hp)

/-- Shadows that are reused. -/
lemma shadowFor_reuse {allocOk : Bool} {len : ℕ} (h : t.shadows name = some s)
    (hlen : len ≤ s.len) :
    t.shadowFor junk name len allocOk = some (t, s) := by
  simp only [Tracer.shadowFor, h, if_pos hlen]

/-- Shadows that are new. -/
lemma shadowFor_alloc {len : ℕ} (h : ∀ s, t.shadows name = some s → s.len < len) (allocOk : Bool) :
    t.shadowFor junk name len allocOk =
      if allocOk then some (t.allocShadow junk name len) else none := by
  cases hs : t.shadows name with
  | none => simp only [Tracer.shadowFor, hs]
  | some s => simp only [Tracer.shadowFor, hs, if_neg (Nat.not_le.mpr (h s hs))]

/-- A new allocation is none of the others. -/
lemma Inv.fresh (hinv : Inv t latest) :
    (∀ name' s', t.shadows name' = some s' → s'.alloc ≠ t.allocs) ∧
      copiesTo t.pending t.allocs = [] :=
  ⟨fun name' s' h => (hinv.allocated name' s' h).ne,
    List.filter_eq_nil_iff.mpr fun c hc => by simpa using (hinv.pending c hc).ne⟩

end Invariant

section Steps

variable {junk : ℕ → ℕ → UInt8} {t t' : Tracer} {latest : Latest} {name : String}
  {p : List UInt8} {s : PinnedBuffer}

/-- A copy is issued into the shadow that is there. -/
lemma Inv.capture_reuse (hinv : Inv t latest) {gpuIdx : ℕ} (hs : t.shadows name = some s)
    (hlen : s.len = p.length) (hstream : ∀ c ∈ t.pending, c.dst = s.alloc → c.stream = gpuIdx) :
    Inv { t with pending := t.pending ++ [⟨gpuIdx, s.alloc, p⟩] }
      (Function.update latest name (some p)) := by
  obtain ⟨q, hq⟩ := Option.ne_none_iff_exists'.mp fun h =>
    (nomatch hs.symm.trans ((hinv.none_iff name).mpr h))
  have hold := hinv.settles name s q hs hq
  refine hinv.put (s := s) (Function.update_eq_self_iff.mpr hs.symm).symm rfl
    (fun c hc => by rw [List.mem_singleton.mp hc]) (Nat.le_refl _) (hinv.allocated name s hs)
    (fun name' s' hne h heq => hne (hinv.distinct name' name s' s h hs heq)) ?_
  refine settles_push (c := ⟨gpuIdx, s.alloc, p⟩) rfl hlen (fun c hc => ?_) fun c hc => ?_
  · rw [hold.sizes c hc, ← hold.length]
    exact hlen
  · obtain ⟨hmem, hdst⟩ := List.mem_filter.mp hc
    exact hstream c hmem (by simpa using hdst)

/-- A copy is issued into a new shadow. -/
lemma Inv.capture_alloc (hinv : Inv t latest) (gpuIdx : ℕ) (name : String) (p : List UInt8) :
    let a := t.allocShadow junk name p.length
    Inv { a.1 with pending := a.1.pending ++ [⟨gpuIdx, a.2.alloc, p⟩] }
      (Function.update latest name (some p)) := by
  intro a
  obtain ⟨hothers, hnone⟩ := hinv.fresh
  refine hinv.put (s := a.2) rfl rfl (fun c hc => by rw [List.mem_singleton.mp hc])
    (Nat.le_succ _) (Nat.lt_succ_self _) (fun name' s' _ h => hothers name' s' h) ?_
  have hempty : copiesTo a.1.pending a.2.alloc = [] := hnone
  refine settles_push (c := ⟨gpuIdx, a.2.alloc, p⟩) rfl ?_ (fun c hc => ?_) fun c hc => ?_
  · change ((List.range p.length).map (junk t.allocs)).length = p.length
    rw [List.length_map, List.length_range]
  · rw [hempty] at hc
    exact absurd hc List.not_mem_nil
  · rw [hempty] at hc
    exact absurd hc List.not_mem_nil

/-- The calls of a capture that is taken. -/
lemma Inv.capture (hinv : Inv t latest) {gpuIdx : ℕ} {hip : Hip} (hfilter : t.filter.isNone = false)
    (hmatch : t.filter.matches name = true) (hready : t.Ready (.capture gpuIdx name p hip)) :
    Inv (t.capture junk gpuIdx name p hip).1
      (latest.next junk t (.capture gpuIdx name p hip)) := by
  have hcall : t.capture junk gpuIdx name p hip =
      match t.streams[gpuIdx]? with
      | none => (t, false)
      | some false => (t, false)
      | some true =>
          match t.shadowFor junk name p.length (hip ≠ .allocFails) with
          | none => (t, false)
          | some (t', shadow) =>
              if hip = .copyFails then (t', false)
              else ({ t' with pending := t'.pending ++ [⟨gpuIdx, shadow.alloc, p⟩] }, true) := by
    simp only [Tracer.capture, hfilter, hmatch, Bool.false_eq_true, not_true, if_false]
  rw [Latest.next, hcall]
  match hstream : t.streams[gpuIdx]? with
  | none => exact hinv
  | some false => exact hinv
  | some true =>
      simp only
      by_cases hreuse : ∃ s, t.shadows name = some s ∧ p.length ≤ s.len
      · obtain ⟨s, hs, hle⟩ := hreuse
        simp only [Tracer.Ready, hs] at hready
        have hlen : s.len = p.length := Nat.le_antisymm hready.1 hle
        rw [shadowFor_reuse hs hle]
        by_cases hfail : hip = .copyFails
        · simpa [hfail] using hinv
        · simp only [if_neg hfail, if_true]
          exact hinv.capture_reuse hs hlen (hready.2.2 hlen)
      · have hshort : ∀ s, t.shadows name = some s → s.len < p.length := fun s hs =>
          Nat.lt_of_not_le fun hle => hreuse ⟨s, hs, hle⟩
        rw [shadowFor_alloc hshort]
        by_cases halloc : hip = .allocFails
        · simpa [halloc] using hinv
        · have hfail : hip ≠ .copyFails := by
            cases hs : t.shadows name with
            | none =>
                simp only [Tracer.Ready, hs] at hready
                exact hready
            | some s =>
                simp only [Tracer.Ready, hs] at hready
                exact fun h => (hshort s hs).ne (hready.2.1 h)
          simp only [ne_eq, halloc, not_false_eq_true, decide_true, if_true, if_neg hfail]
          exact hinv.capture_alloc gpuIdx name p

/-- An insertion. -/
lemma Inv.insertShadow (hinv : Inv t latest) {allocOk : Bool}
    (hready : t.Ready (.insertShadow name p allocOk)) :
    Inv (t.insertShadow junk name p allocOk)
      (latest.next junk t (.insertShadow name p allocOk)) := by
  have hsettles : ∀ {cs : List Copy} {s : PinnedBuffer}, copiesTo cs s.alloc = [] →
      s.bytes.length = p.length → Settles cs (s.write p) p := fun {cs s} hnone hlen => by
    have hbytes : (s.write p).bytes = p := by
      rw [PinnedBuffer.write, List.drop_of_length_le hlen.le, List.append_nil]
    have hnone' : copiesTo cs (s.write p).alloc = [] := hnone
    refine ⟨by rw [hbytes], fun c hc => ?_, fun c hc => ?_, ?_⟩
    · rw [hnone'] at hc
      exact absurd hc List.not_mem_nil
    · rw [hnone'] at hc
      exact absurd hc List.not_mem_nil
    · rw [hnone', hbytes]
      rfl
  rw [Latest.next, Tracer.insertShadow]
  by_cases hreuse : ∃ s, t.shadows name = some s ∧ p.length ≤ s.len
  · obtain ⟨s, hs, hle⟩ := hreuse
    simp only [Tracer.Ready, hs] at hready
    have hlen : s.len = p.length := Nat.le_antisymm hready.1 hle
    rw [shadowFor_reuse hs hle]
    refine hinv.put (s := s.write p) rfl (List.append_nil _).symm (fun c hc => nomatch hc)
      (Nat.le_refl _) (hinv.allocated name s hs)
      (fun name' s' hne h heq => hne (hinv.distinct name' name s' s h hs heq)) ?_
    refine hsettles (List.filter_eq_nil_iff.mpr fun c hc => ?_) hlen
    simpa using hready.2.2 hlen c hc
  · have hshort : ∀ s, t.shadows name = some s → s.len < p.length := fun s hs =>
      Nat.lt_of_not_le fun hle => hreuse ⟨s, hs, hle⟩
    have hok : allocOk = true := by
      cases hs : t.shadows name with
      | none =>
          simp only [Tracer.Ready, hs] at hready
          exact hready
      | some s =>
          simp only [Tracer.Ready, hs] at hready
          exact hready.2.1 (hshort s hs)
    obtain ⟨hothers, hnone⟩ := hinv.fresh
    rw [shadowFor_alloc hshort, if_pos hok]
    refine hinv.put (s := (t.allocShadow junk name p.length).2.write p) ?_ (List.append_nil _).symm
      (fun c hc => nomatch hc) (Nat.le_succ _) (Nat.lt_succ_self _)
      (fun name' s' _ h => hothers name' s' h) ?_
    · exact Function.update_idem _ _ _
    · refine hsettles hnone ?_
      change ((List.range p.length).map (junk t.allocs)).length = p.length
      rw [List.length_map, List.length_range]

/-- A copy lands. -/
lemma Inv.land (hinv : Inv t latest) {i : ℕ} (h : t.land i = some t') : Inv t' latest := by
  rw [Tracer.land] at h
  cases hc : t.pending[i]? with
  | none => simp [hc] at h
  | some c =>
      simp only [hc] at h
      split_ifs at h with hfirst
      cases h
      obtain ⟨hi, hget⟩ := List.getElem?_eq_some_iff.mp hc
      have hsplit : t.pending = t.pending.take i ++ c :: t.pending.drop (i + 1) := by
        rw [← hget, List.getElem_cons_drop, List.take_append_drop]
      have hnow : ∀ name s', ((t.shadows name).map fun s =>
          if s.alloc = c.dst then s.write c.payload else s) = some s' →
          ∃ s, t.shadows name = some s ∧ s'.alloc = s.alloc ∧
            s' = if s.alloc = c.dst then s.write c.payload else s := fun name s' h => by
        obtain ⟨s, hs, rfl⟩ := Option.map_eq_some_iff.mp h
        refine ⟨s, hs, ?_, rfl⟩
        split_ifs <;> rfl
      refine ⟨fun name s' h => ?_, fun c' hc' => ?_, fun n n' u u' hn hn' halloc => ?_,
        fun name => ?_, fun name s' p h hp => ?_⟩
      · obtain ⟨s, hs, halloc, -⟩ := hnow name s' h
        rw [halloc]
        exact hinv.allocated name s hs
      · exact hinv.pending c' (List.mem_of_mem_eraseIdx hc')
      · obtain ⟨s, hs, ha, -⟩ := hnow n u hn
        obtain ⟨s', hs', ha', -⟩ := hnow n' u' hn'
        exact hinv.distinct n n' s s' hs hs' (by rw [← ha, ← ha', halloc])
      · rw [← hinv.none_iff name]
        exact Option.map_eq_none_iff
      · obtain ⟨s, hs, -, rfl⟩ := hnow name s' h
        have hold := hinv.settles name s p hs hp
        rw [hsplit] at hold
        change Settles (t.pending.eraseIdx i) _ p
        rw [List.eraseIdx_eq_take_drop_succ]
        refine hold.land fun c' hc' => ?_
        simpa using List.all_eq_true.mp hfirst c' hc'

/-- A drain changes the sink alone. -/
lemma Inv.drain (hinv : Inv t latest) (order : List String) : Inv (t.drain order) latest := by
  rw [Tracer.drain]
  split_ifs
  · exact hinv
  · exact ⟨hinv.allocated, hinv.pending, hinv.distinct, hinv.none_iff, hinv.settles⟩

end Steps

/-! ### Reading after a drain -/

section Reads

variable {junk : ℕ → ℕ → UInt8} {t t' : Tracer} {latest : Latest}

/-- The record of a name, if its shadow consists of whole floats. -/
def Tracer.recordOf (t : Tracer) (name : String) : Option Record :=
  match t.shadows name with
  | some s => if s.len % 4 = 0 then some (name, unpackFloats s.bytes) else none
  | none => none

/-- The records that a drain writes. -/
def Tracer.records (t : Tracer) (order : List String) : List Record := order.filterMap t.recordOf

lemma recordOf_eq_some {name : String} {r : Record} (h : t.recordOf name = some r) :
    ∃ s, t.shadows name = some s ∧ s.len % 4 = 0 ∧ r = (name, unpackFloats s.bytes) := by
  rw [Tracer.recordOf] at h
  cases hs : t.shadows name with
  | none => simp [hs] at h
  | some s =>
      simp only [hs] at h
      split_ifs at h with hfloats
      exact ⟨s, rfl, hfloats, (Option.some.inj h).symm⟩

lemma foldl_writeShadow (order : List String) (sink : TraceSink) :
    order.foldl t.writeShadow sink =
      (t.records order).foldl (fun sink r => sink.writeCheckpoint r.1 r.2) sink := by
  induction order generalizing sink with
  | nil => rfl
  | cons name order ih =>
      rw [List.foldl_cons, ih]
      simp only [Tracer.records, List.filterMap_cons, Tracer.recordOf, Tracer.writeShadow]
      cases t.shadows name with
      | none => rfl
      | some s =>
          simp only
          split_ifs <;> rfl

/-- A payload of whole floats is packed as it was. -/
lemma flatMap_unpackFloats {bs : List UInt8} (h : bs.length % 4 = 0) :
    (unpackFloats bs).flatMap u32Bytes = bs := by
  induction bs using unpackFloats.induct with
  | case1 b0 b1 b2 b3 rest ih =>
      have hsize : 256 ^ [b0, b1, b2, b3].length = 2 ^ 32 := by norm_num
      have hlt : ofLeBytes [b0, b1, b2, b3] < 2 ^ 32 := hsize ▸ ofLeBytes_lt [b0, b1, b2, b3]
      have hhead : u32Bytes (UInt32.ofNat (ofLeBytes [b0, b1, b2, b3])) = [b0, b1, b2, b3] := by
        rw [u32Bytes, UInt32.toNat_ofNat_of_lt' hlt]
        exact leBytes_ofLeBytes [b0, b1, b2, b3]
      have hrest : rest.length % 4 = 0 := by
        simp only [List.length_cons] at h
        omega
      rw [unpackFloats, List.flatMap_cons, hhead, ih hrest]
      rfl
  | case2 bs hshort =>
      match bs with
      | [] => rfl
      | [_] | [_, _] | [_, _, _] => simp at h
      | b0 :: b1 :: b2 :: b3 :: rest => exact absurd rfl (hshort b0 b1 b2 b3 rest)

/-- With nothing pending a probe reads as its last payload. -/
lemma Inv.read (hinv : Inv t latest) (hdone : t.pending = []) (name : String) :
    t.read name = latest name := by
  rw [Tracer.read]
  cases hs : t.shadows name with
  | none => exact ((hinv.none_iff name).mp hs).symm
  | some s =>
      obtain ⟨p, hp⟩ := Option.ne_none_iff_exists'.mp fun h =>
        (nomatch hs.symm.trans ((hinv.none_iff name).mpr h))
      have hsettles := hinv.settles name s p hs hp
      rw [hdone] at hsettles
      rw [hp, Option.map_some, hsettles.bytes_eq]

/-- The records of a drain are the last payloads of whole floats. -/
lemma Inv.mem_records (hinv : Inv t latest) (hdone : t.pending = []) {order : List String}
    (hkeys : t.Keys order) {name : String} {data : List UInt32} :
    (name, data) ∈ t.records order ↔ latest name = some (data.flatMap u32Bytes) := by
  have hread := hinv.read hdone name
  rw [Tracer.read] at hread
  rw [Tracer.records, List.mem_filterMap]
  constructor
  · rintro ⟨name', -, h⟩
    obtain ⟨s, hs, hfloats, hr⟩ := recordOf_eq_some h
    obtain ⟨rfl, rfl⟩ := Prod.mk.inj hr
    rw [← hread, hs, Option.map_some, flatMap_unpackFloats hfloats]
  · intro hlatest
    rw [hlatest] at hread
    obtain ⟨s, hs, hbytes⟩ := Option.map_eq_some_iff.mp hread
    have hfloats : s.len % 4 = 0 := by
      rw [PinnedBuffer.len, hbytes, length_flatMap_u32Bytes]
      exact Nat.mul_mod_left _ _
    refine ⟨name, (hkeys.2 name).mpr (by rw [hs]; rfl), ?_⟩
    simp only [Tracer.recordOf, hs, if_pos hfloats, hbytes, unpackFloats_flatMap]

/-- Every name has one record at most. -/
lemma records_nodup {order : List String} (h : order.Nodup) : (t.records order).Nodup := by
  refine h.filterMap fun name name' r hr hr' => ?_
  obtain ⟨s, -, -, rfl⟩ := recordOf_eq_some hr
  obtain ⟨s', -, -, heq⟩ := recordOf_eq_some hr'
  exact (Prod.mk.inj heq).1

/-- No step changes the filter. -/
lemma Tracer.Step.filter_eq {e : Event} (h : t.Step junk e t') : t'.filter = t.filter := by
  have hfor : ∀ {name : String} {len : ℕ} {allocOk : Bool} {u : Tracer × PinnedBuffer},
      t.shadowFor junk name len allocOk = some u → u.1.filter = t.filter := by
    intro name len allocOk u hu
    rw [Tracer.shadowFor] at hu
    cases hs : t.shadows name <;> simp only [hs] at hu <;> split_ifs at hu <;> cases hu <;> rfl
  cases e with
  | capture gpuIdx name payload hip =>
      obtain rfl : t' = _ := h
      rw [Tracer.capture]
      split
      · rfl
      split
      · rfl
      match t.streams[gpuIdx]? with
      | none => rfl
      | some false => rfl
      | some true =>
          simp only
          cases hu : t.shadowFor junk name payload.length (hip ≠ .allocFails) with
          | none => rfl
          | some u =>
              simp only
              split_ifs <;> exact hfor hu
  | insertShadow name bytes allocOk =>
      obtain rfl : t' = _ := h
      rw [Tracer.insertShadow]
      cases hu : t.shadowFor junk name bytes.length allocOk with
      | none => rfl
      | some u => exact hfor hu
  | land i =>
      have hland : t.land i = some t' := h
      rw [Tracer.land] at hland
      cases hc : t.pending[i]? with
      | none => simp [hc] at hland
      | some c =>
          simp only [hc] at hland
          split_ifs at hland
          cases hland
          rfl
  | drain order =>
      obtain ⟨-, -, rfl⟩ := h
      rw [Tracer.drain]
      split_ifs <;> rfl

/-- **What one step preserves.** -/
lemma Inv.step (hinv : Inv t latest) (hfilter : t.filter.isNone = false) {e : Event}
    (hmatch : e.Matches t.filter) (hready : t.Ready e) (hstep : t.Step junk e t') :
    Inv t' (latest.next junk t e) := by
  cases e with
  | capture gpuIdx name payload hip =>
      obtain rfl : t' = _ := hstep
      exact hinv.capture hfilter hmatch hready
  | insertShadow name bytes allocOk =>
      obtain rfl : t' = _ := hstep
      exact hinv.insertShadow hready
  | land i => exact hinv.land hstep
  | drain order =>
      obtain ⟨-, -, rfl⟩ := hstep
      exact hinv.drain order

/-- What a run whose steps meet the condition preserves. -/
lemma Inv.of_run {streams : List Bool} {filter : ProbeFilter} {sink : Option TraceSink}
    {events : List Event} {s : Tracer × Latest} (hfilter : filter.isNone = false)
    (hrun : Run (guarded (fun s e => e.Matches s.1.filter ∧ s.1.Ready e) (Step junk))
      (Tracer.new streams filter sink, fun _ => none) events s) :
    s.1.filter.isNone = false ∧ Inv s.1 s.2 := by
  refine hrun.invariant (I := fun s => s.1.filter.isNone = false ∧ Inv s.1 s.2) ?_
    ⟨hfilter, .new streams filter sink⟩
  rintro s e u ⟨hnone, hs⟩ ⟨⟨hmatch, hready⟩, hstep, hnext⟩
  rw [hnext, hstep.filter_eq]
  exact ⟨hnone, hs.step hnone hmatch hready hstep⟩

end Reads

/-- **Shadows hold the last payload**: in every run with a matching filter whose steps meet the
condition on the tracer before them, after a drain every probe reads as the last payload captured
or inserted under its name, and the drain has written one record for every name whose last payload
consists of whole floats, with exactly its elements. -/
theorem read_of_run (junk : ℕ → ℕ → UInt8) {streams : List Bool} {filter : ProbeFilter}
    {sink : Option TraceSink} {events : List Event} {s : Tracer × Latest} {order : List String}
    {t : Tracer} (hfilter : filter.isNone = false)
    (hrun : Run (guarded (fun s e => e.Matches s.1.filter ∧ s.1.Ready e) (Step junk))
      (Tracer.new streams filter sink, fun _ => none) events s)
    (hdrain : s.1.Step junk (.drain order) t) :
    (∀ name, t.read name = s.2 name) ∧
      ∀ sink, s.1.sink = some sink → ∃ records : List Record,
        t.sink = some (records.foldl (fun sink r => sink.writeCheckpoint r.1 r.2) sink) ∧
        records.Nodup ∧
        ∀ name data, (name, data) ∈ records ↔ s.2 name = some (data.flatMap u32Bytes) := by
  obtain ⟨hnone, hinv⟩ := Inv.of_run hfilter hrun
  obtain ⟨hdone, hkeys, rfl⟩ := hdrain
  have hdrained : s.1.drain order =
      { s.1 with sink := s.1.sink.map fun sink => order.foldl s.1.writeShadow sink } := by
    rw [Tracer.drain, if_neg (by rw [hnone]; exact Bool.false_ne_true)]
  refine ⟨fun name => ?_, fun sink hsink => ⟨s.1.records order, ?_, records_nodup hkeys.1,
    fun name data => hinv.mem_records hdone hkeys⟩⟩
  · rw [← hinv.read hdone name, hdrained]
    rfl
  · rw [hdrained, hsink, Option.map_some, foldl_writeShadow]

/-! ### One probe -/

/-- A tracer of one stream that traces everything. -/
def oneStream : Tracer := .new [true] .all (some .open)

/-- An insertion under "embed". -/
def Tracer.embed (t : Tracer) (payload : List UInt8) : Tracer :=
  t.insertShadow (fun _ _ => 0) "embed" payload true

/-- An insertion is a step of a run. -/
lemma run_embed (guard : Tracer × Latest → Event → Prop) {events : List Event} {t : Tracer}
    {latest : Latest} (payload : List UInt8)
    (hrun : Run (guarded guard (Step fun _ _ => 0)) (oneStream, fun _ => none) events (t, latest))
    (hguard : guard (t, latest) (.insertShadow "embed" payload true)) :
    Run (guarded guard (Step fun _ _ => 0)) (oneStream, fun _ => none)
      (events ++ [.insertShadow "embed" payload true])
      (t.embed payload, Function.update latest "embed" (some payload)) :=
  hrun.snoc ⟨hguard, rfl, rfl⟩

/-- It leaves the shadows of other names. -/
lemma shadows_embed (t : Tracer) (payload : List UInt8) {name : String} (hname : name ≠ "embed") :
    (t.embed payload).shadows name = t.shadows name := by
  have hfor : ∀ {u : Tracer × PinnedBuffer},
      t.shadowFor (fun _ _ => 0) "embed" payload.length true = some u →
        u.1.shadows name = t.shadows name := by
    intro u hu
    rw [Tracer.shadowFor] at hu
    cases hs : t.shadows "embed" with
    | none =>
        simp only [hs, if_true] at hu
        cases hu
        exact Function.update_of_ne hname _ _
    | some s =>
        simp only [hs, if_true] at hu
        split_ifs at hu
        · cases hu
          rfl
        · cases hu
          exact Function.update_of_ne hname _ _
  rw [Tracer.embed, Tracer.insertShadow]
  cases hu : t.shadowFor (fun _ _ => 0) "embed" payload.length true with
  | none => rfl
  | some u => exact (Function.update_of_ne hname _ _).trans (hfor hu)

/-- There is no shadow of another name. -/
lemma keys_embed (t : Tracer) (hshadow : (t.shadows "embed").isSome)
    (hothers : ∀ name ≠ "embed", t.shadows name = none) : t.Keys ["embed"] := by
  refine ⟨List.nodup_singleton _, fun name => ?_⟩
  rw [List.mem_singleton]
  by_cases hname : name = "embed"
  · rw [hname]
    exact ⟨fun _ => hshadow, fun _ => rfl⟩
  · rw [hothers name hname]
    exact ⟨fun h => absurd h hname, fun h => absurd h Bool.false_ne_true⟩

/-- Two payloads of the same probe, the second longer: it reads as the second. -/
theorem read_of_run_growing : (((oneStream.embed [1, 2, 3, 4]).embed
    [5, 6, 7, 8, 9, 10, 11, 12]).drain ["embed"]).read "embed" =
      some [5, 6, 7, 8, 9, 10, 11, 12] := by
  have hfirst := run_embed (fun s e => e.Matches s.1.filter ∧ s.1.Ready e) [1, 2, 3, 4] .nil
    ⟨trivial, rfl⟩
  have hready : (oneStream.embed [1, 2, 3, 4]).Ready
      (.insertShadow "embed" [5, 6, 7, 8, 9, 10, 11, 12] true) := by
    change 4 ≤ 8 ∧ (4 < 8 → true = true) ∧ (4 = 8 → _)
    exact ⟨by decide, fun _ => rfl, fun h => by cases h⟩
  have hsecond := run_embed _ [5, 6, 7, 8, 9, 10, 11, 12] hfirst ⟨trivial, hready⟩
  have hkeys := keys_embed ((oneStream.embed [1, 2, 3, 4]).embed [5, 6, 7, 8, 9, 10, 11, 12]) rfl
    fun name hname => (shadows_embed _ _ hname).trans (shadows_embed _ _ hname)
  exact (read_of_run _ rfl hsecond ⟨rfl, hkeys, rfl⟩).1 "embed"

/-- The second shorter: it reads as the second with the end of the first behind it. -/
theorem read_stale :
    ¬ ∀ (junk : ℕ → ℕ → UInt8) (streams : List Bool) (filter : ProbeFilter)
      (sink : Option TraceSink) (events : List Event) (s : Tracer × Latest) (order : List String)
      (t : Tracer),
      filter.isNone = false →
      Run (guarded (fun s e => e.Matches s.1.filter) (Step junk))
        (Tracer.new streams filter sink, fun _ => none) events s →
      s.1.Step junk (.drain order) t → ∀ name, t.read name = s.2 name := by
  intro hall
  have hfirst := run_embed (fun s e => e.Matches s.1.filter) [1, 2, 3, 4, 5, 6, 7, 8] .nil trivial
  have hsecond := run_embed _ [9, 10, 11, 12] hfirst trivial
  have hkeys := keys_embed ((oneStream.embed [1, 2, 3, 4, 5, 6, 7, 8]).embed [9, 10, 11, 12]) rfl
    fun name hname => (shadows_embed _ _ hname).trans (shadows_embed _ _ hname)
  have hread := hall _ _ _ _ _ _ ["embed"] _ rfl hsecond ⟨rfl, hkeys, rfl⟩ "embed"
  have hbytes : some [9, 10, 11, 12, 5, 6, 7, 8] = some [(9 : UInt8), 10, 11, 12] := hread
  cases hbytes

end Braidinfer.Trace
