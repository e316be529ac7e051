import MemfdBuffer.Lib.Separator
import MemfdBuffer.PoolRun
import Mathlib.Data.UInt

/-!
# Block ids

Every `create_block` advances the 32-bit `next_block_id_`, also one that then fails, and nothing ever gives
an id back. `draws` counts the ids drawn, `drawn` says of each block how many were drawn before its own;
the id is that number modulo 2^32. The broker finds a registration by id alone, so `listeners`, which says
whose memfd a client gets at a path, shows what a repeated id does.
-/

namespace MemfdBuffer

open SwapRemove Separator

/-! ### Paths -/

theorem underscore_notMem_int (z : Int) : '_' ∉ (toString z).toList := by
  cases z with
  | ofNat n =>
    show '_' ∉ (toString n).toList
    simp
  | negSucc n =>
    show '_' ∉ ("-" ++ toString (n + 1)).toList
    simp

/-- A path tells the block id. -/
theorem blockSocketPath_inj {euid euid' : Nat} {pid pid' nativeHandle nativeHandle' : Int} {blockId blockId' : UInt32}
    (h : blockSocketPath euid pid blockId nativeHandle = blockSocketPath euid' pid' blockId' nativeHandle') :
    blockId = blockId' := by
  have h := congrArg String.toList h
  unfold blockSocketPath at h
  simp only [String.toList_append, List.append_assoc, String.reduceToList, List.cons_append,
    List.nil_append, List.cons.injEq, true_and] at h
  obtain ⟨-, h⟩ := first_inj (c := '_') (by simp) (by simp) h
  obtain ⟨-, h⟩ := first_inj (c := '_') (underscore_notMem_int pid) (underscore_notMem_int pid') h
  obtain ⟨h, -⟩ := first_inj (c := '_') (by simp) (by simp) h
  exact UInt32.toNat_inj.1 (toList_toString_inj h)

/-- `create_platform_mapping` returns no negative descriptor. -/
def PoolOp.onLinux : PoolOp → Bool
  | .allocate _ e =>
    match e.mapping with
    | .ok nativeHandle => decide (0 ≤ nativeHandle)
    | .error _ => true
  | _ => true

namespace Pool
variable {pool pool' : Pool} {b c n : Nat} {block : SharedBufferBlock} {e : AllocEnv}

/-- The ids of the blocks, with their descriptors. -/
def identities (pool : Pool) : List (UInt32 × Int) :=
  pool.allBlocks.map fun block => (block.blockId, block.nativeHandle)

/-- No two blocks have one id. -/
def Distinct (pool : Pool) : Prop :=
  ∀ (b c : Nat) (x y : SharedBufferBlock), pool.allBlocks[b]? = some x → pool.allBlocks[c]? = some y →
    x.blockId = y.blockId → b = c

/-- An `allocate` that adds a block: no entry can be claimed, and the mapping succeeds. -/
def Creates (pool : Pool) (n : Nat) (e : AllocEnv) : Prop :=
  n ≠ 0 ∧ kSharedBufferPayloadOffset + n ≤ offMax ∧ (∃ nativeHandle, e.mapping = .ok nativeHandle) ∧
    ∀ o ∈ pool.attempts e.attempt 0 (pool.bucket n), o = false

/-- Whose memfd is served at which path after a `register_block_for_ipc`: a first registration binds the path
anew and duplicates the descriptor of its block, one that fails unlinks the path. -/
def listenersAfter (pool : Pool) (listeners : String → Option Nat) (b euid : Nat) (pid : Int)
    (socket : Except Exn Unit) : String → Option Nat :=
  match pool.allBlocks[b]? with
  | none => listeners
  | some block =>
    if block.nativeHandle < 0 ∨ (pool.registeredBlocks block.blockId).isSome then listeners
    else
      match socket with
      | .ok _ => Function.update listeners (blockSocketPath euid pid block.blockId block.nativeHandle) (some b)
      | .error _ => Function.update listeners (blockSocketPath euid pid block.blockId block.nativeHandle) none

/-- What ids depend on is the same in both. -/
structure Same (p q : Pool) : Prop where
  next : q.nextBlockId = p.nextBlockId
  identities : q.identities = p.identities
  registered : q.registeredBlocks = p.registeredBlocks

namespace Same
variable {p q r : Pool}

theorem refl (p : Pool) : Same p p := ⟨rfl, rfl, rfl⟩

theorem trans (h : Same p q) (h' : Same q r) : Same p r :=
  ⟨h'.next.trans h.next, h'.identities.trans h.identities, h'.registered.trans h.registered⟩

theorem length (h : Same p q) : q.allBlocks.length = p.allBlocks.length := by
  have := congrArg List.length h.identities
  simpa [Pool.identities] using this

theorem set {y : SharedBufferBlock} (hb : p.allBlocks[b]? = some block) (hid : y.blockId = block.blockId)
    (hfd : y.nativeHandle = block.nativeHandle) (outside : Nat → Nat) :
    Same p { p with allBlocks := p.allBlocks.set b y, outside := outside } := by
  refine ⟨rfl, ?_, rfl⟩
  unfold Pool.identities
  rw [List.map_set, hid, hfd]
  refine List.ext_getElem? fun c => ?_
  rw [List.getElem?_set]
  split
  · rename_i hc
    subst hc
    rw [List.length_map, if_pos (List.getElem?_eq_some_iff.1 hb).1, List.getElem?_map, hb]
    rfl
  · rfl

theorem modifyBlock {f : SharedBufferBlock → SharedBufferBlock}
    (hf : ∀ x, (f x).blockId = x.blockId ∧ (f x).nativeHandle = x.nativeHandle) : Same p (p.modifyBlock b f) := by
  unfold Pool.modifyBlock
  split
  · exact set ‹_› (hf _).1 (hf _).2 p.outside
  · exact refl p

theorem modifyControl {f : SharedBufferControlHeader → SharedBufferControlHeader} :
    Same p (p.modifyControl b f) := modifyBlock fun _ => ⟨rfl, rfl⟩

theorem outsideStep {act : Outside} : Same p (p.outsideStep act) := by
  unfold Pool.outsideStep
  split
  · rename_i block hb
    obtain ⟨control, he⟩ := act.on_eq block (p.outside act.block)
    dsimp only
    rw [he]
    exact set (y := block.withControl control) hb rfl rfl _
  · exact refl p

theorem interfere (acts : List Outside) : Same p (p.interfere acts) := by
  induction acts generalizing p with
  | nil => exact refl p
  | cons act acts ih => exact outsideStep.trans ih

theorem takeEntry (i : Nat) (entries : List (Option Nat)) : Same p (p.takeEntry n i entries) := ⟨rfl, rfl, rfl⟩

theorem handOut (e : AllocEnv) : Same p (p.handOut b e) := by
  have h1 : Same p _ := modifyBlock (b := b)
    (f := fun block => { block with inUse := true, currentUid := drawUid e.uid })
    fun _ => ⟨rfl, rfl⟩
  exact (((((h1.trans (interfere e.beforeUid)).trans modifyControl).trans (interfere e.beforeStamp)).trans
    modifyControl).trans (interfere e.beforeDrop)).trans modifyControl

theorem markPublished (now : Nat) : Same p (p.markPublished b now) := by
  refine Same.trans (modifyBlock ?_) modifyControl
  exact fun _ => ⟨rfl, rfl⟩

theorem assignUid (uid : UInt64) : Same p (p.assignUid b uid).1 := by
  unfold Pool.assignUid
  split
  · exact refl p
  · split
    · exact modifyBlock fun _ => ⟨rfl, rfl⟩
    · exact refl p

theorem free (entry : Option Nat) : Same p (p.free entry) := by
  cases entry with
  | none => exact refl p
  | some b =>
    cases hb : p.allBlocks[b]? with
    | none => rw [free_none hb]; exact refl p
    | some block =>
      rw [free_eq hb]
      split
      · have h : Same p (p.modifyBlock b fun block => { block with inUse := false }) := modifyBlock fun _ => ⟨rfl, rfl⟩
        exact ⟨h.next, h.identities, h.registered⟩
      · exact refl p

end Same

theorem createBlock_ids {mapping : Except Exn Int} {r : Except Exn Nat} (h : pool.createBlock n mapping = (pool', r)) :
    Same pool pool' ∧ offMax < kSharedBufferPayloadOffset + n ∧ (∃ x, r = .error x) ∨
      pool'.nextBlockId = pool.nextBlockId + 1 ∧ pool'.registeredBlocks = pool.registeredBlocks ∧
        (pool'.identities = pool.identities ∧ (∃ x, r = .error x) ∧
            ¬ (kSharedBufferPayloadOffset + n ≤ offMax ∧ ∃ nativeHandle, mapping = .ok nativeHandle) ∨
          kSharedBufferPayloadOffset + n ≤ offMax ∧ (∃ b, r = .ok b) ∧ ∃ nativeHandle, mapping = .ok nativeHandle ∧
            pool'.identities = pool.identities ++ [(pool.nextBlockId, nativeHandle)]) := by
  unfold createBlock at h
  split at h
  · rename_i hbig
    cases h
    refine .inl ⟨.refl pool, ?_, _, rfl⟩
    simp only [offMax, sizeMax, kSharedBufferPayloadOffset] at hbig ⊢
    omega
  · dsimp only at h
    split at h
    · cases h
      exact .inr ⟨rfl, rfl, .inl ⟨rfl, ⟨_, rfl⟩, fun hc => by omega⟩⟩
    · rename_i hsmall
      split at h
      · cases h
        exact .inr ⟨rfl, rfl, .inl ⟨rfl, ⟨_, rfl⟩, fun hc => by obtain ⟨-, _, hc⟩ := hc; cases hc⟩⟩
      · cases h
        exact .inr ⟨rfl, rfl, .inr ⟨by omega, ⟨_, rfl⟩, _, rfl, by simp [identities]⟩⟩

/-- `allocate` takes a block over, draws an id in vain, or creates a block with the next id. -/
theorem allocate_ids {r : Except Exn Nat} (ha : pool.allocate n e = (pool', r)) :
    Same pool pool' ∧ ¬ pool.Creates n e ∨
      pool'.nextBlockId = pool.nextBlockId + 1 ∧ pool'.registeredBlocks = pool.registeredBlocks ∧
        (pool'.identities = pool.identities ∧ ¬ pool.Creates n e ∨
          pool.Creates n e ∧ ∃ nativeHandle, e.mapping = .ok nativeHandle ∧
            pool'.identities = pool.identities ++ [(pool.nextBlockId, nativeHandle)]) := by
  unfold allocate at ha
  split at ha
  · rename_i hn
    cases ha
    exact .inl ⟨.refl pool, fun hc => hc.1 hn⟩
  obtain ⟨acts, -, ⟨hs, ho⟩ | ⟨j, b, block, -, -, -, ho, hs⟩⟩ := scan_spec e.attempt (pool.bucket n) pool 0
  · -- every attempt failed
    have hi := Same.interfere (p := pool) acts
    simp only [hs, allocateNew] at ha
    cases hc : (pool.interfere acts).createBlock n e.mapping with
    | mk p₁ r₁ =>
      have hids := createBlock_ids hc
      rw [hi.next, hi.identities, hi.registered] at hids
      rw [hc] at ha
      cases r₁ with
      | error x =>
        cases ha
        rcases hids with ⟨hsame, hbig, -⟩ | ⟨hnext, hreg, ⟨hid, -, hno⟩ | ⟨-, ⟨_, hb⟩, -⟩⟩
        · exact .inl ⟨hi.trans hsame, fun hc => by have := hc.2.1; omega⟩
        · exact .inr ⟨hnext, hreg, .inl ⟨hid, fun hc => hno ⟨hc.2.1, hc.2.2.1⟩⟩⟩
        · cases hb
      | ok b =>
        cases ha
        have hout := Same.handOut (p := p₁) (b := b) e
        rcases hids with ⟨-, -, _, hx⟩ | ⟨hnext, hreg, ⟨-, ⟨_, hx⟩, -⟩ | ⟨hsmall, -, fd, hfd, hid⟩⟩
        · cases hx
        · cases hx
        · exact .inr ⟨hout.next.trans hnext, hout.registered.trans hreg,
            .inr ⟨⟨‹_›, hsmall, ⟨fd, hfd⟩, ho⟩, fd, hfd, hout.identities.trans hid⟩⟩
  · simp only [hs] at ha
    cases ha
    refine .inl ⟨?_, fun hc => absurd (hc.2.2.2 _ ho) (by decide)⟩
    exact (((Same.interfere acts).trans Same.modifyControl).trans (.takeEntry _ _)).trans (.handOut e)

end Pool

/-- A pool in a run and the listeners of its broker. -/
structure IdRun where
  run : PoolRun := {}
  /-- By socket path, the block whose memfd a client is sent. -/
  listeners : String → Option Nat := fun _ => none
  -- history
  draws : Nat := 0
  drawn : List Nat := []

namespace IdRun

/-- A block is created an exact multiple of 2^32 draws after another. -/
def Wraps (s : IdRun) : PoolOp → Prop
  | .allocate n e => s.run.pool.Creates n e ∧ ∃ d ∈ s.drawn, d ≡ s.draws [MOD 2 ^ 32]
  | _ => False

def listenersOn (s : IdRun) : PoolOp → String → Option Nat
  | .register b euid pid socket => s.run.pool.listenersAfter s.listeners b euid pid socket
  | _ => s.listeners

def step (s : IdRun) (op : PoolOp) : Option IdRun :=
  if op.onLinux then
    (s.run.step op).map fun run =>
      { run := run
        listeners := s.listenersOn op
        draws := if run.pool.nextBlockId = s.run.pool.nextBlockId then s.draws else s.draws + 1
        drawn := if run.pool.allBlocks.length = s.run.pool.allBlocks.length then s.drawn else s.drawn ++ [s.draws] }
  else none

/-- Ids identify blocks: no two have the same, and a registration returns the path where a client is sent the
block's own memfd. -/
structure Identified (s : IdRun) : Prop where
  distinct : s.run.pool.Distinct
  serves (b euid : Nat) (pid : Int) (socket : Except Exn Unit) (path : String) : b < s.run.pool.allBlocks.length →
    (s.run.pool.registerBlock b euid pid socket).2 = .ok path →
      s.run.pool.listenersAfter s.listeners b euid pid socket path = some b

variable {s s' : IdRun} {op : PoolOp} {ops : List PoolOp}

/-- What holds of the ids in every run, wrapped or not. -/
structure Inv (s : IdRun) : Prop where
  next : s.run.pool.nextBlockId = UInt32.ofNat s.draws
  ids : s.run.pool.identities.map Prod.fst = s.drawn.map UInt32.ofNat
  handles {id : UInt32} {nativeHandle : Int} : (id, nativeHandle) ∈ s.run.pool.identities → 0 ≤ nativeHandle
  /-- A registered id is that of a block which its listener serves. -/
  entries {id : UInt32} {path : String} : s.run.pool.registeredBlocks id = some path →
    ∃ (b euid : Nat) (pid nativeHandle : Int), s.run.pool.identities[b]? = some (id, nativeHandle) ∧
      path = blockSocketPath euid pid id nativeHandle ∧ s.listeners path = some b

theorem Inv.init : Inv {} where
  next := rfl
  ids := rfl
  handles h := absurd h List.not_mem_nil
  entries h := by cases h

/-- A step that leaves the ids alone. -/
theorem Inv.same (h : Inv s) {run : PoolRun} (hsame : Pool.Same s.run.pool run.pool) :
    Inv { s with run := run } where
  next := hsame.next.trans h.next
  ids := (congrArg (List.map Prod.fst) hsame.identities).trans h.ids
  handles hm := h.handles (by rw [← hsame.identities]; exact hm)
  entries he := by
    have he : s.run.pool.registeredBlocks _ = some _ := (congrFun hsame.registered _).symm.trans he
    obtain ⟨b, euid, pid, fd, hb, hpath, hl⟩ := h.entries he
    exact ⟨b, euid, pid, fd, by rw [hsame.identities]; exact hb, hpath, hl⟩

/-- The draw counter after an `allocate` that drew. -/
theorem ofNat_succ (n : Nat) : UInt32.ofNat n + 1 = UInt32.ofNat (n + 1) := by
  rw [UInt32.ofNat_add]
  rfl

theorem succ_ne (x : UInt32) : x + 1 ≠ x := by
  intro h
  have := congrArg UInt32.toNat h
  rw [UInt32.toNat_add] at this
  have hx := x.toNat_lt
  simp only [UInt32.toNat_one] at this
  omega

/-- An `allocate` that drew an id in vain. -/
theorem Inv.drew (h : Inv s) {run : PoolRun} (hnext : run.pool.nextBlockId = s.run.pool.nextBlockId + 1)
    (hreg : run.pool.registeredBlocks = s.run.pool.registeredBlocks)
    (hids : run.pool.identities = s.run.pool.identities) : Inv { s with run := run, draws := s.draws + 1 } where
  next := by
    show run.pool.nextBlockId = UInt32.ofNat (s.draws + 1)
    rw [hnext, h.next, ofNat_succ]
  ids := (congrArg (List.map Prod.fst) hids).trans h.ids
  handles hm := h.handles (by rw [← hids]; exact hm)
  entries he := by
    have he : s.run.pool.registeredBlocks _ = some _ := (congrFun hreg _).symm.trans he
    obtain ⟨b, euid, pid, fd, hb, hpath, hl⟩ := h.entries he
    exact ⟨b, euid, pid, fd, by rw [hids]; exact hb, hpath, hl⟩

/-- An `allocate` that created a block. -/
theorem Inv.created (h : Inv s) {run : PoolRun} {nativeHandle : Int}
    (hnext : run.pool.nextBlockId = s.run.pool.nextBlockId + 1)
    (hreg : run.pool.registeredBlocks = s.run.pool.registeredBlocks) (hfd : 0 ≤ nativeHandle)
    (hids : run.pool.identities = s.run.pool.identities ++ [(s.run.pool.nextBlockId, nativeHandle)]) :
    Inv { s with run := run, draws := s.draws + 1, drawn := s.drawn ++ [s.draws] } where
  next := by
    show run.pool.nextBlockId = UInt32.ofNat (s.draws + 1)
    rw [hnext, h.next, ofNat_succ]
  ids := by
    show run.pool.identities.map Prod.fst = (s.drawn ++ [s.draws]).map UInt32.ofNat
    rw [hids, List.map_append, List.map_append, h.ids, h.next]
    rfl
  handles {id fd} hm := by
    have hm : (id, fd) ∈ s.run.pool.identities ++ [(s.run.pool.nextBlockId, nativeHandle)] := by rw [← hids]; exact hm
    rcases List.mem_append.1 hm with hm | hm
    · exact h.handles hm
    · cases List.mem_singleton.1 hm
      exact hfd
  entries he := by
    have he : s.run.pool.registeredBlocks _ = some _ := (congrFun hreg _).symm.trans he
    obtain ⟨b, euid, pid, fd, hb, hpath, hl⟩ := h.entries he
    refine ⟨b, euid, pid, fd, ?_, hpath, hl⟩
    show run.pool.identities[b]? = _
    rw [hids, List.getElem?_append_left (List.getElem?_eq_some_iff.1 hb).1]
    exact hb

/-- A registration returns what is registered, or binds a path of an id that has none. -/
theorem registerBlock_ids {pool pool' : Pool} (listeners : String → Option Nat) {b euid : Nat} {pid : Int}
    {socket : Except Exn Unit} {r : Except Exn String} (hr : pool.registerBlock b euid pid socket = (pool', r)) :
    pool' = pool ∧ pool.listenersAfter listeners b euid pid socket = listeners ∧
        (∀ block, pool.allBlocks[b]? = some block → 0 ≤ block.nativeHandle →
          ∃ path, pool.registeredBlocks block.blockId = some path ∧ r = .ok path) ∨
      ∃ block, pool.allBlocks[b]? = some block ∧ pool.registeredBlocks block.blockId = none ∧
        (pool' = pool ∧ (∃ x, r = .error x) ∧ pool.listenersAfter listeners b euid pid socket =
            Function.update listeners (blockSocketPath euid pid block.blockId block.nativeHandle) none ∨
          r = .ok (blockSocketPath euid pid block.blockId block.nativeHandle) ∧
            pool'.nextBlockId = pool.nextBlockId ∧ pool'.identities = pool.identities ∧
            pool'.registeredBlocks = Function.update pool.registeredBlocks block.blockId
              (some (blockSocketPath euid pid block.blockId block.nativeHandle)) ∧
            pool.listenersAfter listeners b euid pid socket =
              Function.update listeners (blockSocketPath euid pid block.blockId block.nativeHandle) (some b)) := by
  unfold Pool.registerBlock at hr
  unfold Pool.listenersAfter
  cases hb : pool.allBlocks[b]? with
  | none =>
    rw [hb] at hr
    cases hr
    exact .inl ⟨rfl, rfl, fun block h => by cases h⟩
  | some block =>
    rw [hb] at hr
    dsimp only at hr ⊢
    by_cases hneg : block.nativeHandle < 0
    · rw [if_pos hneg] at hr
      cases hr
      refine .inl ⟨rfl, if_pos (.inl hneg), fun block' h => ?_⟩
      cases h
      exact fun hpos => absurd hpos (by omega)
    · rw [if_neg hneg] at hr
      cases hreg : pool.registeredBlocks block.blockId with
      | some path =>
        rw [hreg] at hr
        cases hr
        refine .inl ⟨rfl, if_pos (.inr rfl), fun block' h => ?_⟩
        cases h
        exact fun _ => ⟨path, hreg, rfl⟩
      | none =>
        rw [hreg] at hr
        have hno : ¬ (block.nativeHandle < 0 ∨ (none : Option String).isSome = true) := by simp [hneg]
        refine .inr ⟨block, rfl, hreg, ?_⟩
        rw [if_neg hno]
        cases socket with
        | error x =>
          cases hr
          exact .inl ⟨rfl, ⟨x, rfl⟩, rfl⟩
        | ok u =>
          cases hr
          have hsame : Pool.Same pool (pool.modifyBlock b fun x => { x with
              socketPath := blockSocketPath euid pid block.blockId block.nativeHandle }) :=
            .modifyBlock fun _ => ⟨rfl, rfl⟩
          exact .inr ⟨rfl, hsame.next, hsame.identities, rfl, rfl⟩

theorem identities_get {pool : Pool} {b : Nat} {block : SharedBufferBlock} (hb : pool.allBlocks[b]? = some block) :
    pool.identities[b]? = some (block.blockId, block.nativeHandle) := by
  rw [Pool.identities, List.getElem?_map, hb]
  rfl

theorem Inv.register (h : Inv s) {run : PoolRun} {b euid : Nat} {pid : Int} {socket : Except Exn Unit}
    {r : Except Exn String} (hr : s.run.pool.registerBlock b euid pid socket = (run.pool, r)) :
    Inv { s with run := run, listeners := s.run.pool.listenersAfter s.listeners b euid pid socket } := by
  obtain ⟨hpool, hl, -⟩ | ⟨block, hb, hnone, ⟨hpool, -, hl⟩ | ⟨-, hnext, hids, hreg, hl⟩⟩ :=
    registerBlock_ids s.listeners hr
  · rw [hl]
    exact h.same (by rw [hpool]; exact .refl _)
  · -- the path that is unlinked belongs to no registered id
    refine ⟨(congrArg _ hpool).trans h.next, by rw [← h.ids, hpool], fun hm => h.handles (by rw [← hpool]; exact hm),
      fun {id path} he => ?_⟩
    have he : s.run.pool.registeredBlocks id = some path := by rw [← hpool]; exact he
    obtain ⟨c, euid', pid', fd, hc, hpath, hlc⟩ := h.entries he
    refine ⟨c, euid', pid', fd, by rw [hpool]; exact hc, hpath, ?_⟩
    have hne : path ≠ blockSocketPath euid pid block.blockId block.nativeHandle := fun hp => by
      rw [blockSocketPath_inj (hpath.symm.trans hp), hnone] at he
      cases he
    show s.run.pool.listenersAfter s.listeners b euid pid socket path = some c
    rw [hl, Function.update_of_ne hne]
    exact hlc
  · refine ⟨hnext.trans h.next, (congrArg (List.map Prod.fst) hids).trans h.ids,
      fun hm => h.handles (by rw [← hids]; exact hm), fun {id path} he => ?_⟩
    have he : run.pool.registeredBlocks id = some path := he
    show ∃ (c euid' : Nat) (pid' fd : Int), run.pool.identities[c]? = some (id, fd) ∧
      path = blockSocketPath euid' pid' id fd ∧ s.run.pool.listenersAfter s.listeners b euid pid socket path = some c
    rw [hids, hl]
    by_cases hid : id = block.blockId
    · subst hid
      rw [hreg, Function.update_self] at he
      cases he
      exact ⟨b, euid, pid, block.nativeHandle, identities_get hb, rfl, Function.update_self ..⟩
    · rw [hreg, Function.update_of_ne hid] at he
      obtain ⟨c, euid', pid', fd, hc, hpath, hlc⟩ := h.entries he
      refine ⟨c, euid', pid', fd, hc, hpath, ?_⟩
      rw [Function.update_of_ne fun hp => hid (blockSocketPath_inj (hpath.symm.trans hp))]
      exact hlc

/-- At the path a registration returns, a block with the id of the one registered is served. -/
theorem Inv.served (h : Inv s) {b euid : Nat} {pid : Int} {socket : Except Exn Unit} {path : String}
    {block : SharedBufferBlock} (hb : s.run.pool.allBlocks[b]? = some block)
    (hr : (s.run.pool.registerBlock b euid pid socket).2 = .ok path) :
    ∃ c other, s.run.pool.listenersAfter s.listeners b euid pid socket path = some c ∧
      s.run.pool.allBlocks[c]? = some other ∧ other.blockId = block.blockId := by
  have hpos : 0 ≤ block.nativeHandle := h.handles (List.mem_of_getElem? (identities_get hb))
  obtain ⟨-, hl, hold⟩ | ⟨block', hb', -, ⟨-, ⟨x, hx⟩, -⟩ | ⟨hok, -, -, -, hl⟩⟩ :=
    registerBlock_ids s.listeners (Prod.mk.eta (p := s.run.pool.registerBlock b euid pid socket)).symm
  · obtain ⟨path', hreg, hp⟩ := hold block hb hpos
    rw [hr] at hp
    cases hp
    obtain ⟨c, _, _, fd, hc, -, hlc⟩ := h.entries hreg
    rw [Pool.identities, List.getElem?_map, Option.map_eq_some_iff] at hc
    obtain ⟨other, hother, hid⟩ := hc
    exact ⟨c, other, by rw [hl]; exact hlc, hother, congrArg Prod.fst hid⟩
  · rw [hr] at hx
    cases hx
  · rw [hb] at hb'
    cases hb'
    rw [hr] at hok
    cases hok
    exact ⟨b, block, by rw [hl]; exact Function.update_self .., hb, rfl⟩

/-! ### Steps -/

/-- What became of the drawn ids: none, or the next one, went to a block. -/
def Drawn (s : IdRun) (op : PoolOp) (s' : IdRun) : Prop :=
  s'.drawn = s.drawn ∧ ¬ s.Wraps op ∨
    s'.drawn = s.drawn ++ [s.draws] ∧ (s.Wraps op ↔ ∃ d ∈ s.drawn, d ≡ s.draws [MOD 2 ^ 32])

theorem length_identities (pool : Pool) : pool.identities.length = pool.allBlocks.length := List.length_map ..

/-- A call that leaves the ids alone. -/
theorem Inv.step_same (h : Inv s) {run : PoolRun} (hstep : s.step op = some s') (hrun : s.run.step op = some run)
    (hsame : Pool.Same s.run.pool run.pool) (hl : s.listenersOn op = s.listeners) (hw : ¬ s.Wraps op) :
    Inv s' ∧ Drawn s op s' := by
  unfold step at hstep
  split at hstep
  · rw [hrun, hl, Option.map_some, if_pos hsame.next, if_pos hsame.length] at hstep
    cases hstep
    exact ⟨h.same hsame, .inl ⟨rfl, hw⟩⟩
  · cases hstep

theorem Inv.step_register (h : Inv s) {b euid : Nat} {pid : Int} {socket : Except Exn Unit}
    (hstep : s.step (.register b euid pid socket) = some s') : Inv s' ∧ Drawn s (.register b euid pid socket) s' := by
  have hr := (Prod.mk.eta (p := s.run.pool.registerBlock b euid pid socket)).symm
  have hkept : (s.run.pool.registerBlock b euid pid socket).1.nextBlockId = s.run.pool.nextBlockId ∧
      (s.run.pool.registerBlock b euid pid socket).1.identities = s.run.pool.identities := by
    obtain ⟨hpool, -⟩ | ⟨-, -, -, ⟨hpool, -⟩ | ⟨-, hnext, hids, -⟩⟩ := registerBlock_ids s.listeners hr
    · rw [hpool]
      exact ⟨rfl, rfl⟩
    · rw [hpool]
      exact ⟨rfl, rfl⟩
    · exact ⟨hnext, hids⟩
  have hlen : (s.run.pool.registerBlock b euid pid socket).1.allBlocks.length = s.run.pool.allBlocks.length := by
    rw [← length_identities, ← length_identities, hkept.2]
  unfold step at hstep
  split at hstep
  · rw [PoolRun.step, Option.map_some, if_pos hkept.1, if_pos hlen] at hstep
    cases hstep
    exact ⟨h.register hr, .inl ⟨rfl, id⟩⟩
  · cases hstep

theorem Inv.step_allocate (h : Inv s) {n : Nat} {e : AllocEnv} (hstep : s.step (.allocate n e) = some s') :
    Inv s' ∧ Drawn s (.allocate n e) s' := by
  unfold step at hstep
  split at hstep
  · rename_i hlinux
    obtain ⟨run, hrun, rfl⟩ := Option.map_eq_some_iff.1 hstep
    have hpool : ∃ r, s.run.pool.allocate n e = (run.pool, r) := by
      cases ha : s.run.pool.allocate n e with
      | mk pool' r =>
        simp only [PoolRun.step, ha] at hrun
        cases r with
        | ok b => cases hrun; exact ⟨_, rfl⟩
        | error x => cases hrun; exact ⟨_, rfl⟩
    obtain ⟨r, ha⟩ := hpool
    rcases Pool.allocate_ids ha with ⟨hsame, hno⟩ | ⟨hnext, hreg, ⟨hids, hno⟩ | ⟨hc, fd, hfd, hids⟩⟩
    · rw [if_pos hsame.next, if_pos hsame.length]
      exact ⟨h.same hsame, .inl ⟨rfl, fun hw => hno hw.1⟩⟩
    · have hlen : run.pool.allBlocks.length = s.run.pool.allBlocks.length := by
        rw [← length_identities, ← length_identities, hids]
      rw [if_neg (by rw [hnext]; exact succ_ne _), if_pos hlen]
      exact ⟨h.drew hnext hreg hids, .inl ⟨rfl, fun hw => hno hw.1⟩⟩
    · have hlen : run.pool.allBlocks.length ≠ s.run.pool.allBlocks.length := by
        rw [← length_identities, ← length_identities, hids, List.length_append, List.length_singleton]
        omega
      have hpos : 0 ≤ fd := by
        rw [PoolOp.onLinux, hfd] at hlinux
        exact of_decide_eq_true hlinux
      rw [if_neg (by rw [hnext]; exact succ_ne _), if_neg hlen]
      exact ⟨h.created hnext hreg hpos hids, .inr ⟨rfl, and_iff_right hc⟩⟩
  · cases hstep

theorem Inv.next_step (h : Inv s) (hs : s.step op = some s') : Inv s' ∧ Drawn s op s' := by
  cases op with
  | allocate n e => exact h.step_allocate hs
  | free entry => exact h.step_same hs rfl (.free entry) rfl id
  | markPublished b now => exact h.step_same hs rfl (.markPublished now) rfl id
  | assignUid b uid => exact h.step_same hs rfl (.assignUid uid) rfl id
  | register b euid pid socket => exact h.step_register hs
  | outside act => exact h.step_same hs rfl .outsideStep rfl id

/-- Equal ids are draws a multiple of 2^32 apart. -/
theorem ofNat_eq_iff {m n : Nat} : UInt32.ofNat m = UInt32.ofNat n ↔ m ≡ n [MOD 2 ^ 32] := by
  rw [← UInt32.toNat_inj, UInt32.toNat_ofNat', UInt32.toNat_ofNat']
  rfl

theorem distinct_iff_nodup (pool : Pool) : pool.Distinct ↔ (pool.identities.map Prod.fst).Nodup := by
  have hget (b : Nat) (x : SharedBufferBlock) (hb : pool.allBlocks[b]? = some x) :
      (pool.identities.map Prod.fst)[b]? = some x.blockId := by
    rw [List.getElem?_map, identities_get hb]
    rfl
  constructor
  · intro h
    rw [List.nodup_iff_getElem?_ne_getElem?]
    intro b c hbc hc he
    rw [List.length_map, length_identities] at hc
    have hb := List.getElem?_eq_getElem (hbc.trans hc)
    have hc := List.getElem?_eq_getElem hc
    rw [hget b _ hb, hget c _ hc] at he
    exact absurd (h b c _ _ hb hc (Option.some.inj he)) hbc.ne
  · intro h b c x y hb hc hid
    have hlt : b < (pool.identities.map Prod.fst).length := by
      rw [List.length_map, length_identities]
      exact (List.getElem?_eq_some_iff.1 hb).1
    exact (List.getElem?_inj hlt h).1 (by rw [hget b x hb, hget c y hc, hid])

/-- A step keeps the ids apart exactly if it does not wrap. -/
theorem Inv.distinct_step (h : Inv s) (hs : s.step op = some s') :
    s'.run.pool.Distinct ↔ s.run.pool.Distinct ∧ ¬ s.Wraps op := by
  obtain ⟨h', hdrawn⟩ := h.next_step hs
  rw [distinct_iff_nodup, distinct_iff_nodup, h'.ids, h.ids]
  rcases hdrawn with ⟨hd, hw⟩ | ⟨hd, hw⟩
  · rw [hd]
    exact (and_iff_left hw).symm
  · rw [hd, hw, List.map_append, List.map_singleton, ← List.concat_eq_append, List.nodup_concat, and_comm]
    refine and_congr_right fun _ => not_congr ?_
    rw [List.mem_map]
    exact exists_congr fun d => and_congr_right fun _ => ofNat_eq_iff

theorem Inv.distinct_run (h : Inv s) (hr : Machine.run step s ops = some s') :
    Inv s' ∧ (s'.run.pool.Distinct ↔
      s.run.pool.Distinct ∧ Machine.Along step (fun s op => ¬ s.Wraps op) s ops) := by
  induction ops generalizing s with
  | nil =>
    cases hr
    exact ⟨h, (and_iff_left trivial).symm⟩
  | cons op ops ih =>
    rw [Machine.run_cons] at hr
    obtain ⟨s₁, h1, h2⟩ := Option.bind_eq_some_iff.1 hr
    obtain ⟨hinv, hiff⟩ := ih (h.next_step h1).1 h2
    refine ⟨hinv, ?_⟩
    rw [hiff, h.distinct_step h1, and_assoc]
    refine and_congr_right fun _ => and_congr_right fun _ => ⟨fun ha t ht => ?_, fun ha => ha s₁ h1⟩
    rw [h1] at ht
    cases ht
    exact ha

/-- Where the ids differ the listeners are right. -/
theorem Inv.identified_iff (h : Inv s) : s.Identified ↔ s.run.pool.Distinct := by
  refine ⟨fun hi => hi.distinct, fun hd => ⟨hd, fun b euid pid socket path hb hr => ?_⟩⟩
  obtain ⟨c, other, hl, hc, hid⟩ := h.served (List.getElem?_eq_getElem hb) hr
  rw [hl, hd c b _ _ hc (List.getElem?_eq_getElem hb) hid]

/-- Ids identify the blocks after a run exactly if it creates no block a multiple of 2^32 draws after another. -/
theorem ids_identify (hr : Machine.run step {} ops = some s) :
    s.Identified ↔ Machine.Along step (fun s op => ¬ s.Wraps op) {} ops := by
  obtain ⟨hinv, hiff⟩ := Inv.init.distinct_run hr
  rw [hinv.identified_iff, hiff]
  exact and_iff_right fun b c x y hb => by cases hb

/-- A pool with one registered block. -/
def opening : List PoolOp := [.allocate 4 { mapping := .ok 3 }, .register 0 1000 7 (.ok ())]

/-- A failing `allocate` between two creations costs an id and nothing else. -/
def gap : List PoolOp :=
  opening ++ [.allocate 8 { mapping := .error (.runtimeError "memfd_create failed") }, .allocate 8 { mapping := .ok 4 }]

theorem ids_identify_gap : ∃ s, Machine.run step {} gap = some s ∧ s.drawn = [0, 2] ∧
    (s.Identified ↔ Machine.Along step (fun s op => ¬ s.Wraps op) {} gap) :=
  ⟨_, rfl, rfl, ids_identify rfl⟩

/-- The pool of `opening` after `draws` draws. -/
def opened (draws : Nat) : IdRun :=
  match Machine.run step {} opening with
  | some s =>
    { s with run := { s.run with pool := { s.run.pool with nextBlockId := UInt32.ofNat draws } }, draws := draws }
  | none => {}

/-- The process is out of descriptors. -/
def exhausted : PoolOp := .allocate 4 { mapping := .error (.runtimeError "memfd_create failed: Too many open files") }

theorem step_exhausted (draws : Nat) : step (opened draws) exhausted = some (opened (draws + 1)) := by
  have hstep : step (opened draws) exhausted = some { opened (draws + 1) with
      run := { (opened draws).run with pool := { (opened draws).run.pool with nextBlockId := UInt32.ofNat draws + 1 } }
      draws := if UInt32.ofNat draws + 1 = UInt32.ofNat draws then draws else draws + 1 } := rfl
  rw [hstep, if_neg (succ_ne _), ofNat_succ]
  rfl

theorem run_exhausted (draws n : Nat) :
    Machine.run step (opened draws) (List.replicate n exhausted) = some (opened (draws + n)) := by
  induction n generalizing draws with
  | zero => rfl
  | succ n ih =>
    rw [List.replicate_succ, Machine.run_cons, step_exhausted, Option.bind_some, ih, Nat.add_assoc, Nat.add_comm 1 n]

/-- The counter comes round while block 0 is registered. -/
def wrapping : List PoolOp :=
  opening ++ (List.replicate (2 ^ 32 - 1) exhausted ++ [.allocate 4 { mapping := .ok 4 }])

/-- Block 1 gets the id of block 0, and with it the path where block 0 is served. -/
theorem not_identified_wrapped : ∃ s, Machine.run step {} wrapping = some s ∧ ¬ s.run.pool.Distinct ∧
    ∃ path, (s.run.pool.registerBlock 1 1000 7 (.ok ())).2 = .ok path ∧
      s.run.pool.listenersAfter s.listeners 1 1000 7 (.ok ()) path = some 0 := by
  have hfirst : Machine.run step {} opening = some (opened 1) := rfl
  have hrun : Machine.run step {} wrapping = step (opened (1 + (2 ^ 32 - 1))) (.allocate 4 { mapping := .ok 4 }) := by
    rw [wrapping, Machine.run_append, hfirst, Option.bind_some, Machine.run_append, run_exhausted, Option.bind_some,
      Machine.run_cons]
    exact Option.bind_fun_some _
  refine ⟨_, hrun.trans rfl, fun h => ?_, _, rfl, rfl⟩
  exact absurd (h 0 1 _ _ rfl rfl rfl) (by decide)

end IdRun

end MemfdBuffer
