import MemfdBuffer.Proc.World
import MemfdBuffer.Lib.Machine

/-!
# Who gives a payload back

Any number of `SharedBuffer` objects over payloads with deleters of their own, moved and destroyed in any
order. `resets` lists what each run of `reset` did; a payload is named by the tag of its deleter.
-/

namespace MemfdBuffer

open Slots

structure Ownership where
  bufs : List (Option SharedBuffer) := []
  -- history
  /-- The effects of each `reset`, one entry a call. -/
  resets : List (List Effect) := []
  /-- The payloads that constructors took. -/
  payloads : List Nat := []
  /-- The reader lease that was taken for a payload. -/
  lease : Nat → Option Nat := fun _ => none
  /-- The blocks whose readers were acquired for leases. -/
  acquired : List Nat := []

/-- The remaining arguments of the constructor. -/
structure BufferArgs where
  size : Nat := 0
  control : Option Nat := none
  owner : Option Nat := none
  blockId : UInt32 := 0
  mappedSize : Nat := 0
  writable : Bool := true
  ipcPid : Int := 0
  ipcName : String := ""
  ipcUid : UInt64 := 0

inductive OwnershipOp
  /-- `SharedBuffer(payload, ...)` with the deleter `tag`. -/
  | construct (payload tag : Nat) (args : BufferArgs)
  | move (j : Nat)
  | assign (i j : Nat)
  | destroy (i : Nat)
  /-- `hold_reader_reference`; `acquired` is the answer of `try_acquire_shared_buffer_reader`. -/
  | hold (i : Nat) (acquired : Bool)

namespace Ownership

/-- `reset` on slot `i`, which holds `x`. -/
def reset (s : Ownership) (i : Nat) (x : SharedBuffer) : Ownership :=
  { s with bufs := s.bufs.set i (some x.resetFields), resets := s.resets ++ [x.resetEffects] }

/-- The field transfer from slot `j`, which holds `y`, to slot `i`. -/
def transfer (s : Ownership) (i j : Nat) (y : SharedBuffer) : Ownership :=
  { s with bufs := (s.bufs.set i (some y.moveFrom.1)).set j (some y.moveFrom.2) }

/-- A new object, about to be moved into. -/
def addEmpty (s : Ownership) : Ownership := { s with bufs := s.bufs ++ [some {}] }

/-- The tag of a deleter that a caller gave. -/
def tagOf : Deleter → Option Nat
  | .custom t => some t
  | _ => none

def step (s : Ownership) : OwnershipOp → Option Ownership
  | .construct payload tag args =>
    if tag ∈ s.payloads then none
    else
      match SharedBuffer.construct (some payload) args.size (.custom tag) args.control args.owner args.blockId
        args.mappedSize args.writable args.ipcPid args.ipcName args.ipcUid with
      | .ok x => some { s with bufs := s.bufs ++ [some x], payloads := tag :: s.payloads }
      | .error _ => some s
  | .move j => do
    let y ← get s.bufs j
    return s.addEmpty.transfer s.bufs.length j y
  | .assign i j => do
    let x ← get s.bufs i
    let y ← get s.bufs j
    if i = j then return s else return (s.reset i x).transfer i j y
  | .destroy i => do
    let x ← get s.bufs i
    return { s.reset i x with bufs := s.bufs.set i none }
  | .hold i acquired => do
    let x ← get s.bufs i
    if x.heldReaderLease.isSome then return s
    else
      match x.control with
      | none => return { s with bufs := s.bufs.set i (some (x.withLease none)) }
      | some b =>
        if acquired then
          return { s with
            bufs := s.bufs.set i (some (x.withLease (some b)))
            lease := fun t => if tagOf x.deleter = some t then some b else s.lease t
            acquired := b :: s.acquired }
        else return s

abbrev Reachable (s : Ownership) : Prop := Machine.Reach step (fun s => s = ({} : Ownership)) s

/-- `x` holds payload `t`. -/
def Owns (t : Nat) (x : SharedBuffer) : Prop := x.dataPtr ≠ none ∧ x.deleter = .custom t

instance (t : Nat) (x : SharedBuffer) : Decidable (Owns t x) := by
  unfold Owns; infer_instance

/-- The number of live buffers that hold payload `t`. -/
def holders (s : Ownership) (t : Nat) : Nat := total (fun x => if Owns t x then 1 else 0) s.bufs

/-- The resets that ran the deleter of payload `t`. -/
def runs (s : Ownership) (t : Nat) : List (List Effect) := s.resets.filter fun l => .custom t ∈ l

/-- The buffers that hold a lease on block `b`. -/
def leases (s : Ownership) (b : Nat) : Nat :=
  total (fun x : SharedBuffer => if x.heldReaderLease = some b then 1 else 0) s.bufs

/-- The times a lease on block `b` was given back. -/
def released (s : Ownership) (b : Nat) : Nat := s.resets.flatten.count (.releaseReader b)

/-- A reset that gives payload `t` back: the lease first, then the deleter. -/
def returned (s : Ownership) (t : Nat) : List Effect := leaseEffects (s.lease t) ++ [.custom t]

/-- A live buffer is moved-from, or holds a payload with its lease. -/
def Filled (s : Ownership) (x : SharedBuffer) : Prop :=
  x = {} ∨ ∃ t ∈ s.payloads, Owns t x ∧ x.heldReaderLease = s.lease t

structure Inv (s : Ownership) : Prop where
  filled {i : Nat} {x : SharedBuffer} : get s.bufs i = some x → s.Filled x
  kept {t : Nat} : t ∈ s.payloads →
    s.holders t = 1 ∧ s.runs t = [] ∨ s.holders t = 0 ∧ s.runs t = [s.returned t]
  fresh {t : Nat} : t ∉ s.payloads → s.runs t = [] ∧ s.lease t = none
  resets {l : List Effect} : l ∈ s.resets → l = [] ∨ ∃ t ∈ s.payloads, l = s.returned t
  balance (b : Nat) : s.acquired.count b = s.leases b + s.released b

section
variable {s s' : Ownership} {x y : SharedBuffer} {i j t u : Nat} {op : OwnershipOp}

theorem Owns.unique (h : Owns t x) (h' : Owns u x) : t = u := by
  have he := h.2.symm.trans h'.2
  cases he
  rfl

theorem not_owns_default : ¬ Owns t {} := fun h => h.1 rfl

theorem Filled.resetEffects (h : s.Filled x) :
    x.resetEffects = [] ∧ x = {} ∨ ∃ t ∈ s.payloads, Owns t x ∧ x.resetEffects = s.returned t := by
  rcases h with rfl | ⟨t, ht, ho, hl⟩
  · exact .inl ⟨rfl, rfl⟩
  · refine .inr ⟨t, ht, ho, ?_⟩
    rw [SharedBuffer.resetEffects, if_pos (Option.isSome_iff_ne_none.2 ho.1), ho.2, hl]
    rfl

theorem Filled.count_releaseReader (h : s.Filled x) (b : Nat) :
    x.resetEffects.count (.releaseReader b) = if x.heldReaderLease = some b then 1 else 0 := by
  rcases h with rfl | ⟨t, -, ho, -⟩
  · rfl
  · rw [SharedBuffer.resetEffects, if_pos (Option.isSome_iff_ne_none.2 ho.1), ho.2]
    cases x.heldReaderLease with
    | none => simp [Deleter.effects]
    | some c => by_cases hc : c = b <;> simp [Deleter.effects, hc]

theorem mem_returned : .custom u ∈ s.returned t ↔ u = t := by
  unfold returned
  cases s.lease t <;> simp

/-- A buffer that owns `t` is counted. -/
theorem holders_pos (hx : get s.bufs i = some x) (ho : Owns t x) : 1 ≤ s.holders t := by
  have hle := le_total (f := fun x : SharedBuffer => if Owns t x then 1 else 0) hx
  rw [if_pos ho] at hle
  exact hle

theorem holders_set {o : Option SharedBuffer} (hx : get s.bufs i = some x) (t : Nat) :
    total (fun x : SharedBuffer => if Owns t x then 1 else 0) (s.bufs.set i o) + (if Owns t x then 1 else 0) =
      s.holders t + o.elim 0 fun x => if Owns t x then 1 else 0 :=
  total_set hx o

namespace Inv

/-- A payload that nobody took is held by nobody. -/
theorem unheld (h : Inv s) (ht : t ∉ s.payloads) : s.holders t = 0 := by
  refine total_eq_zero fun i x hx => if_neg fun ho => ?_
  rcases h.filled hx with rfl | ⟨u, hu, hou, -⟩
  · exact not_owns_default ho
  · exact ht (ho.unique hou ▸ hu)

/-- Buffers are rearranged: the weights are kept and every buffer was there before. -/
theorem rearrange (h : Inv s) {bufs : List (Option SharedBuffer)}
    (hw : ∀ f : SharedBuffer → Nat, f {} = 0 → total f bufs = total f s.bufs)
    (hmem : ∀ i x, get bufs i = some x → x = {} ∨ ∃ j, get s.bufs j = some x) : Inv { s with bufs := bufs } where
  filled hx := by
    rcases hmem _ _ hx with rfl | ⟨j, hj⟩
    · exact .inl rfl
    · exact h.filled hj
  kept ht := by
    rcases h.kept ht with ⟨h1, h2⟩ | ⟨h1, h2⟩
    · exact .inl ⟨(hw _ (if_neg not_owns_default)).trans h1, h2⟩
    · exact .inr ⟨(hw _ (if_neg not_owns_default)).trans h1, h2⟩
  fresh := h.fresh
  resets := h.resets
  balance b := by
    rw [leases, hw _ (if_neg (by simp))]
    exact h.balance b

theorem addEmpty (h : Inv s) : Inv s.addEmpty := by
  refine h.rearrange (fun f hf => ?_) fun i x hx => ?_
  · rw [total_append, hf]
    rfl
  · rw [get_append] at hx
    split at hx
    · cases hx
      exact .inl rfl
    · exact .inr ⟨i, hx⟩

theorem transfer (h : Inv s) (hi : get s.bufs i = some {}) (hj : get s.bufs j = some y) (hij : i ≠ j) :
    Inv (s.transfer i j y) := by
  have hj' : get (s.bufs.set i (some y)) j = some y := by rw [get_set hi, if_neg (Ne.symm hij), hj]
  refine h.rearrange (fun f hf => ?_) fun k x hx => ?_
  · have h1 := total_set (f := f) hi (some y)
    have h2 := total_set (f := f) hj' (some {})
    simp only [Option.elim_some, hf] at h1 h2
    simp only [SharedBuffer.moveFrom_eq]
    omega
  · simp only [SharedBuffer.moveFrom_eq] at hx
    rw [get_set hj', get_set hi] at hx
    split at hx
    · cases hx
      exact .inl rfl
    · split at hx
      · cases hx
        exact .inr ⟨j, hj⟩
      · exact .inr ⟨k, hx⟩

/-- A buffer is emptied, by its destructor or for an assignment: its payload is given back. -/
theorem discharge (h : Inv s) (hx : get s.bufs i = some x) {o : Option SharedBuffer}
    (ho : o = none ∨ o = some {}) :
    Inv { s with bufs := s.bufs.set i o, resets := s.resets ++ [x.resetEffects] } := by
  obtain ⟨s₁, hs₁⟩ : ∃ s₁ : Ownership,
      s₁ = { s with bufs := s.bufs.set i o, resets := s.resets ++ [x.resetEffects] } := ⟨_, rfl⟩
  rw [← hs₁]
  have hpayloads : s₁.payloads = s.payloads := by rw [hs₁]
  have hlease : s₁.lease = s.lease := by rw [hs₁]
  have hreturned : ∀ t, s₁.returned t = s.returned t := fun t => by rw [returned, returned, hlease]
  have hholders : ∀ t, s₁.holders t + (if Owns t x then 1 else 0) = s.holders t := by
    intro t
    have hw := holders_set (o := o) hx t
    have helim : o.elim 0 (fun x : SharedBuffer => if Owns t x then 1 else 0) = 0 := by
      rcases ho with rfl | rfl
      · rfl
      · rw [Option.elim_some, if_neg not_owns_default]
    rw [helim] at hw
    rw [hs₁]
    exact hw
  have hruns : ∀ t, s₁.runs t = s.runs t ++ if Owns t x then [s.returned t] else [] := by
    intro t
    have happend : s₁.runs t = s.runs t ++ [x.resetEffects].filter fun l => .custom t ∈ l := by
      rw [hs₁, runs, runs, List.filter_append]
    rw [happend]
    congr 1
    rcases (h.filled hx).resetEffects with ⟨he, rfl⟩ | ⟨u, -, hou, he⟩
    · rw [he, if_neg not_owns_default]
      rfl
    · rw [he]
      by_cases htu : t = u
      · subst htu
        rw [if_pos hou, List.filter_cons_of_pos (by simpa using mem_returned.2 rfl)]
        rfl
      · rw [if_neg fun hot => htu (hot.unique hou), List.filter_cons_of_neg]
        · rfl
        · simp only [decide_eq_true_eq]
          exact fun hm => htu (mem_returned.1 hm)
  refine ⟨fun {k z} hz => ?_, fun {t} ht => ?_, fun {t} ht => ?_, fun {l} hl => ?_, fun b => ?_⟩
  · rw [hs₁, get_set hx] at hz
    unfold Filled
    rw [hpayloads, hlease]
    split at hz
    · rcases ho with rfl | rfl
      · cases hz
      · cases hz
        exact .inl rfl
    · exact h.filled hz
  · rw [hpayloads] at ht
    have hw := hholders t
    rw [hruns, hreturned]
    split at hw
    · rename_i hot
      have hpos := holders_pos hx hot
      rcases h.kept ht with ⟨h1, h2⟩ | ⟨h1, -⟩
      · rw [if_pos hot, h2]
        exact .inr ⟨by omega, rfl⟩
      · omega
    · rename_i hot
      rw [if_neg hot, List.append_nil, show s₁.holders t = s.holders t from hw]
      exact h.kept ht
  · rw [hpayloads] at ht
    have hot : ¬ Owns t x := fun hot => by
      have hpos := holders_pos hx hot
      rw [h.unheld ht] at hpos
      omega
    rw [hruns, if_neg hot, List.append_nil, hlease]
    exact h.fresh ht
  · rw [hs₁] at hl
    rcases List.mem_append.1 hl with hl | hl
    · rcases h.resets hl with rfl | ⟨t, ht, rfl⟩
      · exact .inl rfl
      · exact .inr ⟨t, by rw [hpayloads]; exact ht, (hreturned t).symm⟩
    · rcases (h.filled hx).resetEffects with ⟨he, -⟩ | ⟨t, ht, -, he⟩
      · exact .inl ((List.mem_singleton.1 hl).trans he)
      · exact .inr ⟨t, by rw [hpayloads]; exact ht,
          ((List.mem_singleton.1 hl).trans he).trans (hreturned t).symm⟩
  · have hw := total_set (f := fun x : SharedBuffer => if x.heldReaderLease = some b then 1 else 0) hx o
    have helim : o.elim 0 (fun x : SharedBuffer => if x.heldReaderLease = some b then 1 else 0) = 0 := by
      rcases ho with rfl | rfl <;> rfl
    have hcount := (h.filled hx).count_releaseReader b
    have hb := h.balance b
    rw [helim] at hw
    rw [hs₁]
    simp only [leases, released, List.flatten_append, List.count_append, List.flatten_singleton] at hb ⊢
    omega

/-- A reader lease is taken for the payload of `x`. -/
theorem hold (h : Inv s) (hx : get s.bufs i = some x) (hnone : x.heldReaderLease = none) {b : Nat}
    (hb : x.control = some b) :
    Inv { s with
      bufs := s.bufs.set i (some (x.withLease (some b)))
      lease := fun t => if tagOf x.deleter = some t then some b else s.lease t
      acquired := b :: s.acquired } := by
  rcases h.filled hx with rfl | ⟨u, hu, hou, hlu⟩
  · cases hb
  have htag : ∀ t, tagOf x.deleter = some t ↔ t = u := by
    intro t
    rw [hou.2]
    exact ⟨fun he => (Option.some.inj he).symm, fun he => by rw [he]; rfl⟩
  have howns : ∀ t, Owns t (x.withLease (some b)) ↔ Owns t x := fun t => Iff.rfl
  have hholders : ∀ t, total (fun x : SharedBuffer => if Owns t x then 1 else 0)
      (s.bufs.set i (some (x.withLease (some b)))) = s.holders t := by
    intro t
    have hw := holders_set (o := some (x.withLease (some b))) hx t
    simp only [Option.elim_some, howns] at hw
    omega
  have hpos := holders_pos hx hou
  have hother : ∀ t, t ≠ u → (if tagOf x.deleter = some t then some b else s.lease t) = s.lease t :=
    fun t ht => if_neg fun he => ht ((htag t).1 he)
  refine ⟨fun {k z} hz => ?_, fun {t} ht => ?_, fun {t} ht => ?_, fun {l} hl => ?_, fun c => ?_⟩
  · rw [get_set hx] at hz
    split at hz
    · cases hz
      exact .inr ⟨u, hu, hou, (if_pos ((htag u).2 rfl)).symm⟩
    · rename_i hk
      rcases h.filled hz with rfl | ⟨t, ht, hot, hlt⟩
      · exact .inl rfl
      · refine .inr ⟨t, ht, hot, hlt.trans (hother t ?_).symm⟩
        rintro rfl
        -- the payload has one holder, in slot `i`
        have hadd := add_le_total (f := fun x : SharedBuffer => if Owns t x then 1 else 0) hx hz (Ne.symm hk)
        rw [if_pos hou, if_pos hot] at hadd
        rcases h.kept ht with ⟨h1, -⟩ | ⟨h1, -⟩ <;> rw [holders] at h1 <;> omega
  · rcases h.kept ht with ⟨h1, h2⟩ | ⟨h1, h2⟩
    · exact .inl ⟨(hholders t).trans h1, h2⟩
    · refine .inr ⟨(hholders t).trans h1, ?_⟩
      show _ = [leaseEffects (if tagOf x.deleter = some t then some b else s.lease t) ++ [.custom t]]
      rw [hother t (by rintro rfl; omega)]
      exact h2
  · obtain ⟨h1, h2⟩ := h.fresh ht
    exact ⟨h1, (hother t fun he => ht (he ▸ hu)).trans h2⟩
  · rcases h.resets hl with rfl | ⟨t, ht, rfl⟩
    · exact .inl rfl
    · refine .inr ⟨t, ht, ?_⟩
      show _ = leaseEffects (if tagOf x.deleter = some t then some b else s.lease t) ++ [.custom t]
      rw [hother t ?_]
      · rfl
      rintro rfl
      rcases h.kept ht with ⟨-, h2⟩ | ⟨h1, -⟩
      · have hmem : s.returned t ∈ s.runs t := List.mem_filter.2 ⟨hl, by simpa using mem_returned.2 rfl⟩
        rw [h2] at hmem
        cases hmem
      · omega
  · have hw := total_set (f := fun x : SharedBuffer => if x.heldReaderLease = some c then 1 else 0) hx
      (some (x.withLease (some b)))
    have hb := h.balance c
    have hlease : (x.withLease (some b)).heldReaderLease = some b := rfl
    simp only [Option.elim_some, hnone, hlease, reduceCtorEq, if_false, Option.some.injEq] at hw
    simp only [leases, released, List.count_cons, beq_iff_eq] at hb ⊢
    show _ = total _ _ + _
    omega

theorem construct (h : Inv s) (ht : t ∉ s.payloads) (ho : Owns t x) (hl : x.heldReaderLease = none) :
    Inv { s with bufs := s.bufs ++ [some x], payloads := t :: s.payloads } := by
  obtain ⟨hruns, hlease⟩ := h.fresh ht
  refine ⟨fun {k z} hz => ?_, fun {u} hu => ?_, fun {u} hu => ?_, fun {l} hl => ?_, fun b => ?_⟩
  · rw [get_append] at hz
    split at hz
    · cases hz
      exact .inr ⟨t, .head _, ho, hl.trans hlease.symm⟩
    · rcases h.filled hz with rfl | ⟨u, hu, hou, hlu⟩
      · exact .inl rfl
      · exact .inr ⟨u, .tail _ hu, hou, hlu⟩
  · show (total _ _ = 1 ∧ _) ∨ (total _ _ = 0 ∧ _)
    rw [total_append]
    by_cases hut : u = t
    · subst hut
      rw [if_pos ho]
      exact .inl ⟨by have := h.unheld ht; rw [holders] at this; omega, hruns⟩
    · rw [if_neg fun hou => hut (hou.unique ho)]
      exact h.kept (List.mem_of_ne_of_mem hut hu)
  · exact h.fresh fun hm => hu (.tail _ hm)
  · rcases h.resets hl with rfl | ⟨u, hu, rfl⟩
    · exact .inl rfl
    · exact .inr ⟨u, .tail _ hu, rfl⟩
  · rw [leases, total_append, hl, if_neg (by simp)]
    exact h.balance b

theorem next (h : Inv s) (hs : step s op = some s') : Inv s' := by
  cases op with
  | construct payload tag args =>
    simp only [step] at hs
    split at hs
    · cases hs
    · rename_i ht
      split at hs
      · rename_i x hc
        cases hs
        simp only [SharedBuffer.construct, Option.isNone_some, Bool.false_and, Bool.false_eq_true, if_false,
          reduceCtorEq, Except.ok.injEq] at hc
        subst hc
        exact h.construct ht ⟨Option.some_ne_none payload, rfl⟩ rfl
      · cases hs
        exact h
  | move j =>
    obtain ⟨y, hy, hs⟩ := Option.bind_eq_some_iff.1 hs
    cases hs
    have hlt := lt_length hy
    refine h.addEmpty.transfer (get_append.trans (if_pos rfl)) ?_ (Nat.ne_of_gt hlt)
    exact get_append.trans ((if_neg (Nat.ne_of_lt hlt)).trans hy)
  | assign i j =>
    obtain ⟨x, hx, hs⟩ := Option.bind_eq_some_iff.1 hs
    obtain ⟨y, hy, hs⟩ := Option.bind_eq_some_iff.1 hs
    split at hs
    · cases hs
      exact h
    · rename_i hij
      cases hs
      refine (h.discharge hx (.inr rfl)).transfer ?_ ?_ hij
      · exact (get_set hx).trans (if_pos rfl)
      · exact (get_set hx).trans ((if_neg (Ne.symm hij)).trans hy)
  | destroy i =>
    obtain ⟨x, hx, hs⟩ := Option.bind_eq_some_iff.1 hs
    cases hs
    exact h.discharge hx (.inl rfl)
  | hold i acquired =>
    obtain ⟨x, hx, hs⟩ := Option.bind_eq_some_iff.1 hs
    split at hs
    · cases hs
      exact h
    · rename_i hnone
      have hnone : x.heldReaderLease = none := by simpa using hnone
      split at hs
      · cases hs
        have hsame : x.withLease none = x := by rw [← hnone]; rfl
        rw [hsame, set_self hx]
        exact h
      · rename_i b hb
        split at hs
        · cases hs
          exact h.hold hx hnone hb
        · cases hs
          exact h

end Inv

theorem Reachable.inv (h : Reachable s) : Inv s := by
  refine Machine.ReachIf.inv (P := Inv) ?_ (fun _ _ _ hi _ hs => hi.next hs) h
  rintro s rfl
  refine ⟨fun hx => ?_, fun ht => ?_, fun _ => ⟨rfl, rfl⟩, fun hl => ?_, fun _ => rfl⟩
  · simp [Slots.get] at hx
  · cases ht
  · cases hl

end

end Ownership

namespace OwnershipOp

/-- The slot whose buffer an operation destroys or overwrites. -/
def emptied : OwnershipOp → Option Nat
  | .assign i j => if i = j then none else some i
  | .destroy i => some i
  | _ => none

/-- The slot that an operation moves from. -/
def source : OwnershipOp → Option Nat
  | .move j => some j
  | .assign i j => if i = j then none else some j
  | _ => none

end OwnershipOp

namespace Ownership

section
variable {s s' : Ownership} {x y : SharedBuffer} {i j t u : Nat} {op : OwnershipOp}

theorem runs_discharge (hf : s.Filled x) (o : List (Option SharedBuffer))
    (hr : runs { s with bufs := o, resets := s.resets ++ [x.resetEffects] } t ≠ s.runs t) : Owns t x := by
  rcases hf.resetEffects with ⟨he, -⟩ | ⟨u, -, ho, he⟩
  · refine absurd ?_ hr
    rw [runs, runs, List.filter_append, he]
    simp
  · by_contra hot
    refine hr ?_
    have htu : t ≠ u := fun htu => hot (htu ▸ ho)
    rw [runs, runs, List.filter_append, he, List.filter_cons_of_neg]
    · simp
    · simp only [decide_eq_true_eq]
      exact fun hm => htu (mem_returned.1 hm)

/-- A deleter runs when the buffer that holds its payload is destroyed or overwritten. -/
theorem Inv.runs_step (h : Inv s) (hs : step s op = some s') (hr : s'.runs t ≠ s.runs t) :
    ∃ i x, op.emptied = some i ∧ Slots.get s.bufs i = some x ∧ Owns t x := by
  cases op with
  | construct payload tag args =>
    simp only [step] at hs
    split at hs
    · cases hs
    · split at hs
      · cases hs
        exact absurd rfl hr
      · cases hs
        exact absurd rfl hr
  | move j =>
    obtain ⟨y, hy, hs⟩ := Option.bind_eq_some_iff.1 hs
    cases hs
    exact absurd rfl hr
  | assign i j =>
    obtain ⟨x, hx, hs⟩ := Option.bind_eq_some_iff.1 hs
    obtain ⟨y, hy, hs⟩ := Option.bind_eq_some_iff.1 hs
    split at hs
    · cases hs
      exact absurd rfl hr
    · rename_i hij
      cases hs
      exact ⟨i, x, if_neg hij, hx, runs_discharge (h.filled hx) _ hr⟩
  | destroy i =>
    obtain ⟨x, hx, hs⟩ := Option.bind_eq_some_iff.1 hs
    cases hs
    exact ⟨i, x, rfl, hx, runs_discharge (h.filled hx) _ hr⟩
  | hold i acquired =>
    obtain ⟨x, hx, hs⟩ := Option.bind_eq_some_iff.1 hs
    split at hs
    · cases hs
      exact absurd rfl hr
    · split at hs
      · cases hs
        exact absurd rfl hr
      · split at hs
        · cases hs
          exact absurd rfl hr
        · cases hs
          exact absurd rfl hr

/-- What a buffer was moved from holds no payload any more. -/
theorem source_emptied (hs : step s op = some s') (hj : op.source = some j) :
    ∃ x, Slots.get s'.bufs j = some x ∧ x.dataPtr = none := by
  cases op with
  | move k =>
    cases hj
    obtain ⟨y, hy, hs⟩ := Option.bind_eq_some_iff.1 hs
    cases hs
    have hlt := lt_length hy
    refine ⟨{}, ?_, rfl⟩
    have hy' : Slots.get (s.addEmpty.bufs.set s.bufs.length (some y.moveFrom.1)) j = some y := by
      unfold addEmpty
      rw [get_set (get_append.trans (if_pos rfl)), if_neg (Nat.ne_of_lt hlt), get_append,
        if_neg (Nat.ne_of_lt hlt), hy]
    exact (get_set hy').trans (if_pos rfl)
  | assign i k =>
    obtain ⟨x, hx, hs⟩ := Option.bind_eq_some_iff.1 hs
    obtain ⟨y, hy, hs⟩ := Option.bind_eq_some_iff.1 hs
    split at hs
    · rename_i hik
      rw [OwnershipOp.source, if_pos hik] at hj
      cases hj
    · rename_i hik
      rw [OwnershipOp.source, if_neg hik] at hj
      cases hj
      cases hs
      refine ⟨{}, ?_, rfl⟩
      have hx' : Slots.get (s.bufs.set i (some x.resetFields)) i = some x.resetFields :=
        (get_set hx).trans (if_pos rfl)
      have hy' : Slots.get ((s.bufs.set i (some x.resetFields)).set i (some y.moveFrom.1)) j = some y := by
        rw [get_set hx', if_neg (Ne.symm hik), get_set hx, if_neg (Ne.symm hik), hy]
      exact (get_set hy').trans (if_pos rfl)
  | construct payload tag args => cases hj
  | destroy i => cases hj
  | hold i acquired => cases hj

end

/-- A buffer without a payload has no descriptor to pass on, and whatever process it is in, it refuses a
write handle. -/
def Refuses (x : SharedBuffer) : Prop :=
  x.hasIpcDescriptor = false ∧
    ∀ (w : Proc.World) k y, w.buf k = some y → y.shared = x → ∃ e, w.getWriteHandle k = some (w, .error e)

theorem refuses_default : Refuses {} := by
  refine ⟨rfl, fun w k y hy hx => ?_⟩
  have hempty : y.shared.dataPtr = none ∨ y.shared.size = 0 := .inl (by rw [hx])
  have hwritable : ¬ y.shared.writable = false := by rw [hx]; decide
  refine ⟨.runtimeError "cannot acquire a write handle for an empty shared buffer", ?_⟩
  rw [Proc.World.getWriteHandle, hy, Option.bind_eq_bind, Option.bind_some, if_neg hwritable, if_pos hempty]
  rfl

/-- Each payload is given back once, with its lease first, when its last holder goes; leases taken are
leases held and given back; and what was moved from refuses to be written. -/
theorem payload_given_back_once {s : Ownership} (h : Reachable s) :
    (∀ t ∈ s.payloads, s.holders t = 1 ∧ s.runs t = [] ∨ s.holders t = 0 ∧ s.runs t = [s.returned t]) ∧
    ((∀ i, Slots.get s.bufs i = none) → (∀ t ∈ s.payloads, s.runs t = [s.returned t]) ∧
      ∀ b, s.released b = s.acquired.count b) ∧
    (∀ l ∈ s.resets, l = [] ∨ ∃ t ∈ s.payloads, l = s.returned t) ∧
    (∀ b, s.acquired.count b = s.leases b + s.released b) ∧
    (∀ op s', step s op = some s' →
      (∀ t, s'.runs t ≠ s.runs t → ∃ i x, op.emptied = some i ∧ Slots.get s.bufs i = some x ∧ Owns t x) ∧
      ∀ j, op.source = some j → ∃ x, Slots.get s'.bufs j = some x ∧ x.dataPtr = none) ∧
    ∀ i x, Slots.get s.bufs i = some x → x.dataPtr = none → Refuses x := by
  have hi := h.inv
  refine ⟨fun t => hi.kept, fun hgone => ⟨fun t ht => ?_, fun b => ?_⟩, fun l => hi.resets, hi.balance,
    fun op s' hs => ⟨fun t => hi.runs_step hs, fun j => source_emptied hs⟩, fun i x hx hnone => ?_⟩
  · have h0 : s.holders t = 0 := total_eq_zero fun i x hx => by
      rw [hgone] at hx
      cases hx
    rcases hi.kept ht with ⟨h1, -⟩ | ⟨-, h2⟩
    · omega
    · exact h2
  · have h0 : s.leases b = 0 := total_eq_zero fun i x hx => by
      rw [hgone] at hx
      cases hx
    have hb := hi.balance b
    omega
  · rcases hi.filled hx with rfl | ⟨t, -, ho, -⟩
    · exact refuses_default
    · exact absurd hnone ho.1

/-- Two payloads, a lease, a move onto a buffer that owns the other, and both objects destroyed. -/
def exchange : List OwnershipOp :=
  [.construct 0 5 { size := 4, control := some 1 }, .construct 0 6 {}, .hold 0 true, .hold 0 true, .move 0,
    .assign 1 2, .assign 1 1, .destroy 0, .destroy 1, .destroy 2]

def exchanged : Ownership := (Machine.run step {} exchange).getD {}

theorem exchanged_reachable : Reachable exchanged :=
  Machine.Reach.run (.start rfl) (show Machine.run step {} exchange = some exchanged from rfl)

theorem payload_given_back_once_exchanged :
    exchanged.resets = [[.custom 6], [], [.releaseReader 1, .custom 5], []] ∧ exchanged.released 1 = 1 ∧
      ∀ t ∈ exchanged.payloads, exchanged.runs t = [exchanged.returned t] :=
  ⟨by decide, by decide, ((payload_given_back_once exchanged_reachable).2.1 fun i => by
    match i with
    | 0 | 1 | 2 => rfl
    | i + 3 => rfl).1⟩

end Ownership

end MemfdBuffer
