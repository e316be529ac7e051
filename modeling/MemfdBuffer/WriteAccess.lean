import MemfdBuffer.Proc.World
import MemfdBuffer.Lib.Machine

/-!
# The Python write scope

A `WriteAccess` over its `_NativeWriteAccess`, with the buffer protocol between them as CPython has it: every
`memoryview` of the native object makes one managed buffer, which holds one native export; views derived from a
view share its managed buffer; the native `releasebuffer` runs when the last of them is released. A deleted view
is a released one.
-/

namespace MemfdBuffer

inductive PyExn
  | valueError (message : String)
  | runtimeError (message : String)
  | bufferError (message : String)
  | memoryError
deriving DecidableEq, Repr

inductive PyValue
  | none
  | view (v : Nat)
  | bool (b : Bool)
  | int (n : Nat)
deriving DecidableEq, Repr

/-- The C++ object behind a `WriteAccess`. -/
structure NativeWriteAccess where
  /-- `owner_`, `none` for `py::none()`. -/
  owner : Option Nat := none
  buffer : Option Nat := none
  handle : WriteHandle := {}
  byteCount : Nat := 0
  exports : Nat := 0
  closed : Bool := false
deriving DecidableEq, Repr

namespace NativeWriteAccess
variable (native : NativeWriteAccess)

/-- `buffer_info`: the pointer and the size. -/
def bufferInfo : Except PyExn (Option Nat × Nat) :=
  if native.closed then .error (.bufferError "write access is closed")
  else .ok (native.handle.dataPtr, native.byteCount)

def addExport : NativeWriteAccess := { native with exports := native.exports + 1 }

def removeExport : NativeWriteAccess :=
  if native.exports ≠ 0 then { native with exports := native.exports - 1 } else native

end NativeWriteAccess

/-- A `memoryview`, with the number of its managed buffer. -/
structure MemoryView where
  managed : Nat
  dataPtr : Option Nat
  byteCount : Nat
  released : Bool := false
deriving DecidableEq, Repr

/-- What may fail inside `memoryview(native)`. -/
inductive MemoryviewEnv
  | ok
  /-- pybind11's `getbuffer`. -/
  | getbufferFails
  /-- The cast in `WriteBufferCallbacks::getbuffer`. -/
  | retainFails
  /-- The allocation of the view, when the native export is already there. -/
  | viewFails
deriving DecidableEq, Repr

structure WriteAccess where
  /-- `_native` is not `None`. -/
  native : Bool := true
  view : Option Nat := none
deriving DecidableEq, Repr

/-- A `WriteAccess` with all that it reaches. -/
structure PyWrite where
  access : WriteAccess := {}
  native : NativeWriteAccess := {}
  /-- The `HandleState` of the buffer. -/
  states : List HandleState := []
  /-- Every view ever made. -/
  views : List MemoryView := []
  managed : Nat := 0
deriving DecidableEq, Repr

inductive PyOp
  | enter (e : MemoryviewEnv)
  | derive (v : Nat)
  | release (v : Nat)
  | close
  | exit
  | closed
  | byteCount
deriving DecidableEq, Repr

namespace PyWrite
variable (s : PyWrite)

/-- A view of managed buffer `k` is not released. -/
def exported (k : Nat) : Bool := s.views.any fun view => view.managed == k && !view.released

/-- `WriteBufferCallbacks::releasebuffer`. -/
def releasebuffer : PyWrite := { s with native := s.native.removeExport }

/-- `WriteHandle::release` on `handle_`, and the assignment of an empty handle. -/
def dropHandle : PyWrite :=
  { s with
    states := match s.native.handle.state with
      | some h => s.states.modify h fun state => { state with state := .finalized }
      | none => s.states
    native := { s.native with handle := {} } }

/-- `NativeWriteAccess::close`. -/
def nativeClose : PyWrite × Except PyExn PyValue :=
  if s.native.exports ≠ 0 then
    (s, .error (.bufferError "cannot close write access while exported views are alive"))
  else if s.native.closed = false then
    let s := s.dropHandle
    ({ s with native := { s.native with owner := none, buffer := none, closed := true } }, .ok .none)
  else (s, .ok .none)

/-- `memoryview.release`. -/
def releaseView (v : Nat) : PyWrite :=
  match s.views[v]? with
  | none => s
  | some view =>
    if view.released then s
    else
      let s := { s with views := s.views.set v { view with released := true } }
      if s.exported view.managed then s else s.releasebuffer

/-- `memoryview(self._native)`. -/
def memoryview (e : MemoryviewEnv) : PyWrite × Except PyExn Nat :=
  match s.native.bufferInfo with
  | .error x => (s, .error x)
  | .ok (dataPtr, byteCount) =>
    match e with
    | .getbufferFails => (s, .error .memoryError)
    | .retainFails => (s, .error (.bufferError "failed to retain shared-buffer export"))
    | .viewFails =>
      let s := { s with native := s.native.addExport }
      (s.releasebuffer, .error .memoryError)
    | .ok =>
      ({ s with
          native := s.native.addExport
          views := s.views ++ [{ managed := s.managed, dataPtr := dataPtr, byteCount := byteCount }]
          managed := s.managed + 1 }, .ok s.views.length)

def closed : Bool := !s.access.native || s.native.closed

/-- `WriteAccess.__enter__`. -/
def enter (e : MemoryviewEnv) : PyWrite × Except PyExn PyValue :=
  if s.access.native = false ∨ s.native.closed = true then (s, .error (.valueError "access is closed"))
  else if s.access.view.isSome then (s, .error (.runtimeError "access context is already entered"))
  else
    match s.memoryview e with
    | (s, .error x) => (s, .error x)
    | (s, .ok v) => ({ s with access := { s.access with view := some v } }, .ok (.view v))

/-- `WriteAccess.close`. -/
def close : PyWrite × Except PyExn PyValue :=
  if s.access.native = false then (s, .ok .none)
  else
    let s := match s.access.view with
      | some v => s.releaseView v
      | none => s
    match s.nativeClose with
    | (s, .error x) => (s, .error x)
    | (s, .ok _) => ({ s with access := { native := false, view := none } }, .ok .none)

/-- A view made from view `v`: `memoryview(v)`, a slice, a cast. -/
def derive (v : Nat) : Option (PyWrite × Except PyExn PyValue) := do
  let view ← s.views[v]?
  if view.released then
    return (s, .error (.valueError "operation forbidden on released memoryview object"))
  else return ({ s with views := s.views ++ [view] }, .ok (.view s.views.length))

def exec : PyOp → Option (PyWrite × Except PyExn PyValue)
  | .enter e => some (s.enter e)
  | .derive v => s.derive v
  | .release v => if v < s.views.length then some (s.releaseView v, .ok .none) else none
  | .close => some s.close
  | .exit =>
    match s.close with
    | (s, .error x) => some (s, .error x)
    | (s, .ok _) => some (s, .ok (.bool false))
  | .closed => some (s, .ok (.bool s.closed))
  | .byteCount =>
    if s.access.native = false then some (s, .error (.valueError "access is closed"))
    else some (s, .ok (.int s.native.byteCount))

def step (s : PyWrite) (op : PyOp) : Option PyWrite := (s.exec op).map Prod.fst

/-- The native access holds a handle whose state is in use. -/
def Holds : Prop :=
  ∃ (b h : Nat) (state : HandleState), s.native.handle.dataPtr = some b ∧ s.native.handle.state = some h ∧
    s.states[h]? = some state ∧ state.state = .inUse

/-- What `write_buffer` returns. -/
structure Init (s : PyWrite) : Prop where
  handle : s.Holds
  exports : s.native.exports = 0
  closed : s.native.closed = false
  access : s.access = {}
  views : s.views = []
  managed : s.managed = 0

abbrev Reachable (s : PyWrite) : Prop := Machine.Reach step Init s

/-- View `v` can be used. -/
def Live (v : Nat) : Prop := ∃ view, s.views[v]? = some view ∧ view.released = false

/-- The native exports that are still out: the managed buffers with a live view. -/
def outstanding : Nat := (List.range s.managed).countP s.exported

variable {s s' : PyWrite} {v u k : Nat} {view : MemoryView}

/-! ### Exports and views -/

/-- The only managed buffer holds the only export while a view of it is live. -/
structure Counted (s : PyWrite) : Prop where
  one : s.managed ≤ 1
  views {v : Nat} {view : MemoryView} : s.views[v]? = some view → view.managed < s.managed
  exports : s.native.exports = (s.exported 0).toNat

theorem exported_iff : s.exported k = true ↔
    ∃ (v : Nat) (view : MemoryView), s.views[v]? = some view ∧ view.managed = k ∧ view.released = false := by
  unfold exported
  rw [List.any_eq_true]
  constructor
  · rintro ⟨view, hmem, hk⟩
    obtain ⟨v, hv⟩ := List.mem_iff_getElem?.1 hmem
    simp only [Bool.and_eq_true, beq_iff_eq, Bool.not_eq_true'] at hk
    exact ⟨v, view, hv, hk.1, hk.2⟩
  · rintro ⟨v, view, hv, hk, hr⟩
    refine ⟨view, List.mem_of_getElem? hv, ?_⟩
    simp [hk, hr]

theorem Counted.managed_eq (h : Counted s) (hv : s.views[v]? = some view) : view.managed = 0 := by
  have := h.views hv
  have := h.one
  omega

theorem Counted.exported_iff_live (h : Counted s) : s.exported 0 = true ↔ ∃ v, s.Live v := by
  rw [exported_iff]
  constructor
  · rintro ⟨v, view, hv, -, hr⟩
    exact ⟨v, view, hv, hr⟩
  · rintro ⟨v, view, hv, hr⟩
    exact ⟨v, view, hv, h.managed_eq hv, hr⟩

theorem Counted.not_live (h : Counted s) : (∀ v, ¬ s.Live v) ↔ s.native.exports = 0 := by
  rw [h.exports, ← not_exists, ← h.exported_iff_live]
  cases s.exported 0 <;> simp

theorem Counted.outstanding_eq (h : Counted s) : s.native.exports = s.outstanding := by
  rw [h.exports]
  unfold outstanding
  rcases Nat.le_one_iff_eq_zero_or_eq_one.1 h.one with hm | hm
  · have hno : s.exported 0 = false := by
      rw [← Bool.not_eq_true, exported_iff]
      rintro ⟨v, view, hv, -, -⟩
      have := h.views hv
      omega
    rw [hno, hm]
    rfl
  · rw [hm]
    cases hx : s.exported 0 <;> simp [hx]

/-- A release of a view changes that view and the count of exports. -/
structure Released (s : PyWrite) (v : Nat) (s' : PyWrite) : Prop where
  counted : Counted s'
  live (u : Nat) : s'.Live u ↔ s.Live u ∧ u ≠ v
  native : s'.native = { s.native with exports := s'.native.exports }
  access : s'.access = s.access
  states : s'.states = s.states
  managed : s'.managed = s.managed
  length : s'.views.length = s.views.length

theorem Counted.releaseView (h : Counted s) (v : Nat) : Released s v (s.releaseView v) := by
  unfold PyWrite.releaseView
  cases hv : s.views[v]? with
  | none =>
    refine ⟨h, fun u => ⟨fun hu => ⟨hu, ?_⟩, And.left⟩, rfl, rfl, rfl, rfl, rfl⟩
    rintro rfl
    obtain ⟨view, hu, -⟩ := hu
    rw [hv] at hu
    cases hu
  | some view =>
    dsimp only
    by_cases hr : view.released = true
    · rw [if_pos hr]
      refine ⟨h, fun u => ⟨fun hu => ⟨hu, ?_⟩, And.left⟩, rfl, rfl, rfl, rfl, rfl⟩
      rintro rfl
      obtain ⟨view', hu, hr'⟩ := hu
      rw [hv] at hu
      cases hu
      rw [hr] at hr'
      cases hr'
    · rw [if_neg hr]
      have hlt : v < s.views.length := (List.getElem?_eq_some_iff.1 hv).1
      obtain ⟨gone, hgone⟩ : ∃ gone : MemoryView, gone = { view with released := true } := ⟨_, rfl⟩
      have hk : gone.managed = view.managed := by rw [hgone]
      have hout : gone.released = true := by rw [hgone]
      rw [← hgone]
      have hget (u : Nat) : (s.views.set v gone)[u]? = if v = u then some gone else s.views[u]? := by
        rw [List.getElem?_set]
        simp [hlt]
      have hviews {u : Nat} {y : MemoryView} (hu : (s.views.set v gone)[u]? = some y) : y.managed < s.managed := by
        rw [hget] at hu
        split at hu
        · cases hu
          rw [hk]
          exact h.views hv
        · exact h.views hu
      have hlive (u : Nat) : (∃ y, (s.views.set v gone)[u]? = some y ∧ y.released = false) ↔ s.Live u ∧ u ≠ v := by
        rw [hget]
        by_cases hvu : v = u
        · simp [hvu, hout]
        · simp only [if_neg hvu, Live]
          exact ⟨fun hu => ⟨hu, Ne.symm hvu⟩, And.left⟩
      -- `v` itself was live
      have hone : s.native.exports = 1 := by
        rw [h.exports, h.exported_iff_live.2 ⟨v, view, hv, by simpa using hr⟩]
        rfl
      rw [h.managed_eq hv]
      split
      · rename_i hx
        refine ⟨⟨h.one, hviews, ?_⟩, hlive, rfl, rfl, rfl, rfl, List.length_set ..⟩
        rw [hx]
        exact hone
      · rename_i hx
        have hremove : s.native.removeExport = { s.native with exports := 0 } := by
          simp [NativeWriteAccess.removeExport, hone]
        refine ⟨⟨h.one, hviews, ?_⟩, hlive, ?_, rfl, rfl, rfl, List.length_set ..⟩
        · show s.native.removeExport.exports = (exported _ 0).toNat
          rw [hremove]
          have hno := Bool.eq_false_iff.2 hx
          exact (congrArg Bool.toNat hno).symm
        · show s.native.removeExport = { s.native with exports := s.native.removeExport.exports }
          rw [hremove]

/-! ### The invariant -/

structure Inv (s : PyWrite) : Prop extends Counted s where
  unentered : s.access.native = true → s.access.view = none → s.managed = 0
  closed : s.native.closed = !s.access.native
  held : s.access.native = true → s.Holds
  shut : s.access.native = false → s.native.exports = 0

theorem Init.inv (h : Init s) : Inv s := by
  have hno : s.exported 0 = false := by
    unfold exported
    rw [h.views]
    rfl
  refine ⟨⟨by rw [h.managed]; omega, fun hv => ?_, by rw [h.exports, hno]; rfl⟩, fun _ _ => h.managed,
    ?_, fun _ => h.handle, fun _ => h.exports⟩
  · rw [h.views] at hv
    cases hv
  · rw [h.closed, h.access]
    rfl

theorem Released.holds (hr : Released s v s') (h : s.Holds) : s'.Holds := by
  obtain ⟨b, n, state, hb, hn, hs, hu⟩ := h
  refine ⟨b, n, state, ?_, ?_, by rw [hr.states]; exact hs, hu⟩
  · rw [hr.native]
    exact hb
  · rw [hr.native]
    exact hn

theorem Released.inv (hr : Released s v s') (h : Inv s) : Inv s' := by
  refine ⟨hr.counted, fun hn hv => ?_, ?_, fun hn => hr.holds (h.held ?_), fun hn => ?_⟩
  · rw [hr.managed]
    rw [hr.access] at hn hv
    exact h.unentered hn hv
  · rw [hr.native, hr.access]
    exact h.closed
  · rw [hr.access] at hn
    exact hn
  · rw [hr.access] at hn
    have hno := h.not_live.2 (h.shut hn)
    exact hr.counted.not_live.1 fun u hu => hno u ((hr.live u).1 hu).1

theorem Inv.release (h : Inv s) (v : Nat) : Inv (s.releaseView v) := (h.releaseView v).inv h

theorem Inv.enter (h : Inv s) (e : MemoryviewEnv) : Inv (s.enter e).1 := by
  unfold PyWrite.enter
  split
  · exact h
  · rename_i hopen
    split
    · exact h
    · rename_i hview
      simp only [not_or, Bool.not_eq_true, Bool.not_eq_false] at hopen
      have hm : s.managed = 0 := h.unentered hopen.1 (by simpa using hview)
      -- nothing was ever exported
      have hnil : s.views = [] := List.eq_nil_iff_forall_not_mem.2 fun view hmem => by
        obtain ⟨v, hv⟩ := List.mem_iff_getElem?.1 hmem
        have := h.views hv
        omega
      have hexp : s.native.exports = 0 := by
        rw [h.exports]
        unfold exported
        rw [hnil]
        rfl
      have hinfo : s.native.bufferInfo = .ok (s.native.handle.dataPtr, s.native.byteCount) := by
        simp [NativeWriteAccess.bufferInfo, hopen.2]
      unfold memoryview
      rw [hinfo]
      cases e with
      | ok =>
        refine ⟨⟨?_, fun {v view} hv => ?_, ?_⟩, fun _ hv => (by cases hv), h.closed, h.held, fun hn => ?_⟩
        · show s.managed + 1 ≤ 1
          omega
        · replace hv : (s.views ++ [_])[v]? = some view := hv
          rw [hnil] at hv
          have hmem := List.mem_of_getElem? hv
          rw [List.nil_append, List.mem_singleton] at hmem
          rw [hmem]
          exact Nat.lt_succ_self _
        · show s.native.exports + 1 = (exported _ 0).toNat
          rw [hexp]
          unfold exported
          rw [hnil, hm]
          rfl
        · rw [hopen.1] at hn
          cases hn
      | getbufferFails => exact h
      | retainFails => exact h
      | viewFails =>
        have hsame : s.native.addExport.removeExport = s.native := by
          simp [NativeWriteAccess.addExport, NativeWriteAccess.removeExport]
        dsimp only [releasebuffer]
        rw [hsame]
        exact h

theorem Inv.derive (h : Inv s) {r : Except PyExn PyValue} (hd : s.derive v = some (s', r)) :
    Inv s' ∧ s'.native = s.native ∧ s'.states = s.states ∧ s'.access = s.access ∧
      ((∀ u, ¬ s.Live u) → s' = s ∧ ∃ x, r = .error x) := by
  unfold PyWrite.derive at hd
  obtain ⟨view, hv, hd⟩ := Option.bind_eq_some_iff.1 hd
  split at hd
  · cases hd
    exact ⟨h, rfl, rfl, rfl, fun _ => ⟨rfl, _, rfl⟩⟩
  · rename_i hr
    cases hd
    have hlive : s.Live v := ⟨view, hv, by simpa using hr⟩
    refine ⟨⟨⟨h.one, fun {u y} hu => ?_, ?_⟩, h.unentered, h.closed, h.held, h.shut⟩, rfl, rfl, rfl,
      fun hno => absurd hlive (hno v)⟩
    · replace hu : (s.views ++ [view])[u]? = some y := hu
      rcases List.mem_append.1 (List.mem_of_getElem? hu) with hmem | hmem
      · obtain ⟨u', hu'⟩ := List.mem_iff_getElem?.1 hmem
        exact h.views hu'
      · rw [List.mem_singleton.1 hmem]
        exact h.views hv
    · show s.native.exports = (exported _ 0).toNat
      have hold := h.exported_iff_live.2 ⟨v, hlive⟩
      rw [h.exports, hold]
      unfold exported at hold ⊢
      rw [List.any_append, hold]
      rfl

/-- The state a successful close leaves. -/
def shutDown (s : PyWrite) : PyWrite :=
  { s.dropHandle with
    access := { native := false, view := none }
    native := { s.dropHandle.native with owner := none, buffer := none, closed := true } }

/-- A close releases the view of the scope. Then it fails where a view is live, and succeeds elsewhere. -/
theorem Inv.close_cases (h : Inv s) (hn : s.access.native = true) : ∃ s₁, Inv s₁ ∧
    (∀ u, s₁.Live u ↔ s.Live u ∧ s.access.view ≠ some u) ∧ s₁.access = s.access ∧ s₁.states = s.states ∧
    s₁.native = { s.native with exports := s₁.native.exports } ∧
    ((∃ u, s₁.Live u) ∧
        s.close = (s₁, .error (.bufferError "cannot close write access while exported views are alive")) ∨
      (∀ u, ¬ s₁.Live u) ∧ s.close = (s₁.shutDown, .ok .none)) := by
  obtain ⟨s₁, hs₁, hinv, hlive, hacc, hst, hnat⟩ : ∃ s₁, (match s.access.view with
      | some v => s.releaseView v
      | none => s) = s₁ ∧ Inv s₁ ∧ (∀ u, s₁.Live u ↔ s.Live u ∧ s.access.view ≠ some u) ∧ s₁.access = s.access ∧
        s₁.states = s.states ∧ s₁.native = { s.native with exports := s₁.native.exports } := by
    cases hv : s.access.view with
    | none => exact ⟨s, rfl, h, fun u => by simp, rfl, rfl, rfl⟩
    | some v =>
      have hr := h.releaseView v
      refine ⟨_, rfl, hr.inv h, fun u => ?_, hr.access, hr.states, hr.native⟩
      rw [hr.live]
      simp [eq_comm]
  refine ⟨s₁, hinv, hlive, hacc, hst, hnat, ?_⟩
  have hclosed : s₁.native.closed = false := by
    rw [hinv.closed, hacc, hn]
    rfl
  unfold PyWrite.close
  rw [if_neg (by rw [hn]; decide), hs₁]
  by_cases hexp : s₁.native.exports = 0
  · refine .inr ⟨hinv.not_live.2 hexp, ?_⟩
    simp only [nativeClose, hexp, hclosed]
    rfl
  · refine .inl ⟨?_, ?_⟩
    · by_contra hno
      exact hexp (hinv.not_live.1 (not_exists.1 hno))
    · simp only [nativeClose, if_pos hexp]

theorem Inv.shutDown (h : Inv s) (hno : ∀ u, ¬ s.Live u) : Inv s.shutDown where
  one := h.one
  views := h.views
  exports := h.exports
  unentered hn := by cases hn
  closed := rfl
  held hn := by cases hn
  shut _ := h.not_live.1 hno

/-- The handle's state is finalized with it. -/
theorem Holds.shutDown (h : s.Holds) : s.shutDown.native.handle = {} ∧ ∃ (n : Nat) (state : HandleState),
    s.native.handle.state = some n ∧ s.shutDown.states[n]? = some state ∧ state.state = .finalized := by
  obtain ⟨b, n, state, -, hn, hs, -⟩ := h
  refine ⟨rfl, n, { state with state := .finalized }, hn, ?_, rfl⟩
  simp [PyWrite.shutDown, dropHandle, hn, hs]

theorem Inv.close (h : Inv s) : Inv s.close.1 := by
  by_cases hn : s.access.native = true
  · obtain ⟨s₁, hinv, -, -, -, -, ⟨-, hc⟩ | ⟨hno, hc⟩⟩ := h.close_cases hn
    · rw [hc]
      exact hinv
    · rw [hc]
      exact hinv.shutDown hno
  · rw [PyWrite.close, if_pos (by simpa using hn)]
    exact h

theorem exec_exit : s.exec .exit =
    some (s.close.1, match s.close.2 with
      | .error x => .error x
      | .ok _ => .ok (.bool false)) := by
  simp only [exec]
  cases s.close with
  | mk s₁ r => cases r <;> rfl

theorem Inv.exec (h : Inv s) {op : PyOp} {r : Except PyExn PyValue} (he : s.exec op = some (s', r)) : Inv s' := by
  cases op with
  | enter e =>
    simp only [PyWrite.exec, Option.some.injEq] at he
    have hi := h.enter e
    rwa [he] at hi
  | derive v => exact (h.derive he).1
  | release v =>
    simp only [PyWrite.exec] at he
    split at he
    · cases he
      exact h.release v
    · cases he
  | close =>
    simp only [PyWrite.exec, Option.some.injEq] at he
    have hi := h.close
    rwa [he] at hi
  | exit =>
    rw [exec_exit] at he
    cases he
    exact h.close
  | closed =>
    cases he
    exact h
  | byteCount =>
    simp only [PyWrite.exec] at he
    split at he
    · cases he
      exact h
    · cases he
      exact h

theorem Reachable.inv (h : Reachable s) : Inv s :=
  Machine.ReachIf.inv (P := Inv) (fun _ hi => hi.inv) (fun s op s' hi _ hs => by
    obtain ⟨⟨s₁, r⟩, he, rfl⟩ := Option.map_eq_some_iff.1 hs
    exact hi.exec he) h

/-! ### What a call does -/

def PyOp.Closes (op : PyOp) : Prop := op = .close ∨ op = .exit

/-- One call, from `s` to `s'` with result `r`. -/
structure Guarded (s : PyWrite) (op : PyOp) (s' : PyWrite) (r : Except PyExn PyValue) : Prop where
  /-- The handle goes only in a close where no view but the scope's own is alive. -/
  given : s'.native.handle ≠ s.native.handle ∨ s'.states ≠ s.states →
    PyOp.Closes op ∧ (∀ v, s.Live v → s.access.view = some v) ∧ ∀ v, ¬ s'.Live v
  /-- A close that raises leaves the native access as it is, with a view that is still alive. -/
  rejected : PyOp.Closes op → ∀ x, r = .error x →
    s'.native = s.native ∧ s'.states = s.states ∧ s'.closed = false ∧ s'.Holds ∧ ∃ v, s'.Live v
  accepted : PyOp.Closes op → (∀ v, s.Live v → s.access.view = some v) → ∃ y, r = .ok y
  /-- A close that succeeds finalizes the buffer, if that has not happened before. -/
  done : PyOp.Closes op → ∀ y, r = .ok y → s'.closed = true ∧
    (s.closed = false → s'.native.handle = {} ∧ ∃ (n : Nat) (state : HandleState),
      s.native.handle.state = some n ∧ s'.states[n]? = some state ∧ state.state = .finalized)

theorem Inv.closed_iff (h : Inv s) : s.closed = true ↔ s.access.native = false := by
  unfold PyWrite.closed
  rw [h.closed, Bool.or_self, Bool.not_eq_true']

/-- Giving nothing up. -/
theorem Guarded.of_kept {op : PyOp} {r : Except PyExn PyValue} (hop : ¬ PyOp.Closes op)
    (hh : s'.native.handle = s.native.handle) (hs : s'.states = s.states) : Guarded s op s' r where
  given hne := by
    rcases hne with hne | hne
    · exact absurd hh hne
    · exact absurd hs hne
  rejected hc := absurd hc hop
  accepted hc := absurd hc hop
  done hc := absurd hc hop

theorem enter_kept (e : MemoryviewEnv) :
    (s.enter e).1.native.handle = s.native.handle ∧ (s.enter e).1.states = s.states := by
  unfold enter
  split
  · exact ⟨rfl, rfl⟩
  · split
    · exact ⟨rfl, rfl⟩
    · unfold memoryview
      cases s.native.bufferInfo with
      | error x => exact ⟨rfl, rfl⟩
      | ok info =>
        cases e with
        | ok => exact ⟨rfl, rfl⟩
        | getbufferFails => exact ⟨rfl, rfl⟩
        | retainFails => exact ⟨rfl, rfl⟩
        | viewFails => simp [releasebuffer, NativeWriteAccess.addExport, NativeWriteAccess.removeExport]

theorem Inv.guarded_close (h : Inv s) {op : PyOp} (hop : PyOp.Closes op) {r : Except PyExn PyValue}
    (herr : ∀ x, r = .error x → s.close.2 = .error x) (hok : ∀ y, r = .ok y → ∃ z, s.close.2 = .ok z) :
    Guarded s op s.close.1 r := by
  by_cases hn : s.access.native = true
  · have hopen : s.closed = false := by
      rw [← Bool.not_eq_true, h.closed_iff, hn]
      decide
    obtain ⟨s₁, hinv, hlive, hacc, hst, hnat, ⟨⟨u, hu⟩, hc⟩ | ⟨hno, hc⟩⟩ := h.close_cases hn
    · -- a view is alive, before as after, and it is not the scope's
      have hu' := (hlive u).1 hu
      have hexp : s₁.native.exports = s.native.exports := by
        rw [hinv.exports, h.exports, hinv.exported_iff_live.2 ⟨u, hu⟩, h.exported_iff_live.2 ⟨u, hu'.1⟩]
      have hsame : s₁.native = s.native := by rw [hnat, hexp]
      rw [hc] at herr hok ⊢
      refine ⟨fun hne => ?_, fun _ x hx => ⟨hsame, hst, ?_, hinv.held (by rw [hacc]; exact hn), u, hu⟩,
        fun _ hall => ?_,
        fun _ y hy => ?_⟩
      · rcases hne with hne | hne
        · exact absurd (congrArg NativeWriteAccess.handle hsame) hne
        · exact absurd hst hne
      · rw [← Bool.not_eq_true, hinv.closed_iff, hacc, hn]
        decide
      · exact absurd (hall u hu'.1) hu'.2
      · obtain ⟨z, hz⟩ := hok y hy
        cases hz
    · rw [hc] at herr hok ⊢
      refine ⟨fun _ => ⟨hop, fun v hv => ?_, hno⟩, fun _ x hx => ?_, fun _ _ => ?_, fun _ y hy => ⟨rfl, fun _ => ?_⟩⟩
      · by_contra hne
        exact hno v ((hlive v).2 ⟨hv, hne⟩)
      · cases herr x hx
      · cases r with
        | error x => cases herr x rfl
        | ok y => exact ⟨y, rfl⟩
      · have := (hinv.held (by rw [hacc]; exact hn)).shutDown
        rw [hnat] at this
        exact this
  · have hn : s.access.native = false := by simpa using hn
    have hc : s.close = (s, .ok .none) := by rw [PyWrite.close, if_pos hn]
    rw [hc] at herr hok ⊢
    refine ⟨fun hne => ?_, fun _ x hx => ?_, fun _ _ => ?_, fun _ y hy => ⟨h.closed_iff.2 hn, fun hopen => ?_⟩⟩
    · rcases hne with hne | hne
      · exact absurd rfl hne
      · exact absurd rfl hne
    · cases herr x hx
    · cases r with
      | error x => cases herr x rfl
      | ok y => exact ⟨y, rfl⟩
    · rw [h.closed_iff.2 hn] at hopen
      cases hopen

theorem Inv.guarded (h : Inv s) {op : PyOp} {r : Except PyExn PyValue} (he : s.exec op = some (s', r)) :
    Guarded s op s' r := by
  cases op with
  | enter e =>
    simp only [PyWrite.exec, Option.some.injEq] at he
    have hk := enter_kept (s := s) e
    rw [he] at hk
    exact .of_kept (by simp [PyOp.Closes]) hk.1 hk.2
  | derive v =>
    obtain ⟨-, hn, hs, -⟩ := h.derive he
    exact .of_kept (by simp [PyOp.Closes]) (congrArg _ hn) hs
  | release v =>
    have hr := h.releaseView v
    simp only [PyWrite.exec] at he
    split at he
    · cases he
      exact .of_kept (by simp [PyOp.Closes]) (by rw [hr.native]) hr.states
    · cases he
  | close =>
    simp only [PyWrite.exec, Option.some.injEq] at he
    have hg := h.guarded_close (show PyOp.Closes .close from .inl rfl) (r := s.close.2) (fun _ => id) fun y hy =>
      ⟨y, hy⟩
    rwa [he] at hg
  | exit =>
    rw [exec_exit] at he
    cases he
    refine h.guarded_close (.inr rfl) (fun x hx => ?_) fun y hy => ?_
    · cases hc : s.close.2 with
      | error x' =>
        rw [hc] at hx
        exact hx
      | ok z =>
        rw [hc] at hx
        cases hx
    · cases hc : s.close.2 with
      | error x' =>
        rw [hc] at hy
        cases hy
      | ok z => exact ⟨z, rfl⟩
  | closed =>
    cases he
    exact .of_kept (by simp [PyOp.Closes]) rfl rfl
  | byteCount =>
    simp only [PyWrite.exec] at he
    split at he
    · cases he
      exact .of_kept (by simp [PyOp.Closes]) rfl rfl
    · cases he
      exact .of_kept (by simp [PyOp.Closes]) rfl rfl

/-! ### After the close -/

/-- Nothing is left to use, and nothing more happens. -/
structure Shut (s : PyWrite) : Prop where
  closed : s.closed = true
  close : s.exec .close = some (s, .ok .none)
  exit : s.exec .exit = some (s, .ok (.bool false))
  enter (e : MemoryviewEnv) : s.exec (.enter e) = some (s, .error (.valueError "access is closed"))
  live (v : Nat) : ¬ s.Live v
  derive (v : Nat) (s' : PyWrite) (r : Except PyExn PyValue) : s.exec (.derive v) = some (s', r) →
    s' = s ∧ ∃ x, r = .error x

theorem Inv.shut_of_closed (h : Inv s) (hc : s.closed = true) : Shut s := by
  have hn := h.closed_iff.1 hc
  have hclose : s.close = (s, .ok .none) := by rw [PyWrite.close, if_pos hn]
  have hlive := h.not_live.2 (h.shut hn)
  refine ⟨hc, congrArg some hclose, ?_, fun e => ?_, hlive, fun v s' r he => (h.derive he).2.2.2.2 hlive⟩
  · rw [exec_exit, hclose]
  · simp [PyWrite.exec, PyWrite.enter, hn]

/-- Once closed, always closed. -/
theorem Inv.closed_step (h : Inv s) (hc : s.closed = true) {op : PyOp} (hs : s.step op = some s') :
    s'.closed = true := by
  obtain ⟨⟨s₁, r⟩, he, rfl⟩ := Option.map_eq_some_iff.1 hs
  have hshut := h.shut_of_closed hc
  cases op with
  | enter e =>
    rw [hshut.enter] at he
    cases he
    exact hc
  | derive v => rw [(hshut.derive v _ _ he).1]; exact hc
  | release v =>
    have hr := h.releaseView v
    have hi := h.exec he
    simp only [PyWrite.exec] at he
    split at he
    · cases he
      rw [hi.closed_iff, hr.access]
      exact h.closed_iff.1 hc
    · cases he
  | close =>
    rw [hshut.close] at he
    cases he
    exact hc
  | exit =>
    rw [hshut.exit] at he
    cases he
    exact hc
  | closed =>
    cases he
    exact hc
  | byteCount =>
    simp only [PyWrite.exec] at he
    split at he
    · cases he
      exact hc
    · cases he
      exact hc

theorem Inv.shut_run (h : Inv s) (hc : s.closed = true) {ops : List PyOp} (hr : Machine.run step s ops = some s') :
    Shut s' := by
  induction ops generalizing s with
  | nil =>
    cases hr
    exact h.shut_of_closed hc
  | cons op ops ih =>
    rw [Machine.run_cons] at hr
    obtain ⟨s₁, h1, h2⟩ := Option.bind_eq_some_iff.1 hr
    obtain ⟨⟨s₂, r⟩, he, rfl⟩ := Option.map_eq_some_iff.1 h1
    exact ih (h.exec he) (h.closed_step hc h1) h2

/-- The write scope protects the views it has exported. -/
theorem views_protected (h : Reachable s) : s.native.exports = s.outstanding ∧
    (∀ op s' r, s.exec op = some (s', r) → Guarded s op s' r) ∧
    ∀ ops s', s.closed = true → Machine.run step s ops = some s' → Shut s' :=
  ⟨h.inv.outstanding_eq, fun _ _ _ => h.inv.guarded, fun _ _ hc => h.inv.shut_run hc⟩

/-- An access to block 0. -/
def written : PyWrite where
  native := { owner := some 0, buffer := some 0, handle := { dataPtr := some 0, state := some 0 }, byteCount := 8 }
  states := [{ state := .inUse }]

/-- A slice of the scope's view outlives the first `close`; the second comes after its release. -/
def retried : List PyOp :=
  [.enter .ok, .derive 0, .close, .closed, .derive 1, .release 1, .enter .ok, .release 2, .release 2, .exit]

theorem views_protected_retried : ∃ s₁ s₂ s, Machine.run step written (retried.take 2) = some s₁ ∧
    s₁.exec .close = some (s₂, .error (.bufferError "cannot close write access while exported views are alive")) ∧
      Guarded s₁ .close s₂ (.error (.bufferError "cannot close write access while exported views are alive")) ∧
      Machine.run step written retried = some s ∧ s.closed = true ∧ Shut s := by
  have hinit : Init written := ⟨⟨0, 0, { state := .inUse }, rfl, rfl, rfl, rfl⟩, rfl, rfl, rfl, rfl, rfl⟩
  have hreach₁ : Reachable ((Machine.run step written (retried.take 2)).getD {}) :=
    Machine.Reach.run (.start hinit) (show Machine.run step written (retried.take 2) = some _ from rfl)
  have hreach : Reachable ((Machine.run step written retried).getD {}) :=
    Machine.Reach.run (.start hinit) (show Machine.run step written retried = some _ from rfl)
  refine ⟨_, _, _, rfl, rfl, (views_protected hreach₁).2.1 _ _ _ rfl, rfl, rfl, ?_⟩
  exact (views_protected hreach).2.2 [] _ rfl rfl

end PyWrite

end MemfdBuffer
