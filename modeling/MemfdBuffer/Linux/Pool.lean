import MemfdBuffer.Linux.Life
import MemfdBuffer.BlockIds
import MemfdBuffer.Proc.Calls

/-!
# The pool over its system calls

First the pointers: `find_block_for_ptr` looks at addresses, and finds the one block whose payload they are in. Then the
calls: a pool whose mappings and registrations come from system calls is one of the pools that are modelled call by
call, and its blocks have the descriptors that it notes for them.
-/

namespace MemfdBuffer

/-- Calls of the pool that make no system call. -/
def PoolOp.bare : PoolOp → Bool
  | .free _ | .markPublished _ _ | .assignUid _ _ | .outside _ => true
  | _ => false

namespace Linux

open Import (Failure)

/-- What other threads do. -/
def Op.foreign : Op → Bool
  | .openOther _ _ | .closeOther _ | .mapOther _ | .unmapOther _ => true
  | _ => false

variable {w w' : World} {b ptr : Nat}

/-! ### Pointers -/

/-- `ptr` points into the payload of block `b`. -/
def World.InPayload (w : World) (b ptr : Nat) : Prop :=
  ∃ block start, w.broker.blocks[b]? = some block ∧ w.mappings[b]? = some start ∧
    start + kSharedBufferPayloadOffset ≤ ptr ∧ ptr < start + kSharedBufferPayloadOffset + block.payloadSize

/-- The test that `find_block_for_ptr` makes. -/
def finds (ptr : Nat) (item : SharedBufferBlock × Nat) : Bool :=
  decide ((item.2 + kSharedBufferPayloadOffset) % 2 ^ 64 ≤ ptr) && decide (ptr < (item.2 + item.1.mappedSize) % 2 ^ 64)

namespace Inv

theorem regions_wf (h : Inv w) : AddressSpace.Wf addressLimit (w.regions ++ w.elsewhere) := h.space.perm h.mapped

theorem region_get {item : SharedBufferBlock × Nat} (hb : (w.broker.blocks.zip w.mappings)[b]? = some item) :
    (w.regions ++ w.elsewhere)[b]? = some (World.region item) := by
  have hlt : b < w.regions.length := by
    rw [World.regions, List.length_map]
    exact (List.getElem?_eq_some_iff.1 hb).1
  rw [List.getElem?_append_left hlt, World.regions, List.getElem?_map, hb]
  rfl

/-- No address wraps, and the test says whether the pointer is in the payload. -/
theorem finds_iff {block : SharedBufferBlock} {start : Nat} (h : Inv w)
    (hb : (w.broker.blocks.zip w.mappings)[b]? = some (block, start)) :
    finds ptr (block, start) = true ↔
      start + kSharedBufferPayloadOffset ≤ ptr ∧ ptr < start + kSharedBufferPayloadOffset + block.payloadSize := by
  have hblock := h.made (List.mem_of_getElem? (List.getElem?_zip_eq_some.1 hb).1)
  obtain ⟨-, -, hstop⟩ := h.regions_wf.bounds (List.mem_of_getElem? (region_get hb))
  have hsize : block.mappedSize = kSharedBufferPayloadOffset + block.payloadSize := hblock.mappedSize
  have hpages := le_pages block.mappedSize
  simp only [Region.stop, World.region, addressLimit] at hstop
  have hoff : kSharedBufferPayloadOffset = 64 := rfl
  have h1 : (start + kSharedBufferPayloadOffset) % 2 ^ 64 = start + kSharedBufferPayloadOffset :=
    Nat.mod_eq_of_lt (by omega)
  have h2 : (start + block.mappedSize) % 2 ^ 64 = start + kSharedBufferPayloadOffset + block.payloadSize := by
    rw [Nat.mod_eq_of_lt (by omega)]
    omega
  unfold finds
  rw [Bool.and_eq_true, decide_eq_true_iff, decide_eq_true_iff]
  dsimp only
  rw [h1, h2]

/-- A pointer into a payload is in the region of that block. -/
theorem region_mem {block : SharedBufferBlock} {start : Nat} (h : Inv w)
    (hb : (w.broker.blocks.zip w.mappings)[b]? = some (block, start)) (hptr : finds ptr (block, start) = true) :
    (World.region (block, start)).Mem ptr := by
  obtain ⟨h1, h2⟩ := (h.finds_iff hb).1 hptr
  have hsize : block.mappedSize = kSharedBufferPayloadOffset + block.payloadSize :=
    (h.made (List.mem_of_getElem? (List.getElem?_zip_eq_some.1 hb).1)).mappedSize
  have hpages := le_pages block.mappedSize
  simp only [Region.Mem, Region.stop, World.region]
  omega

theorem findBlockForPtr_iff (h : Inv w) : w.findBlockForPtr ptr = some b ↔ w.InPayload b ptr := by
  have hfind : w.findBlockForPtr ptr = if ptr = 0 then none
    else (w.broker.blocks.zip w.mappings).findIdx? (finds ptr) := rfl
  rw [hfind]
  split
  · rename_i hzero
    constructor
    · intro hnone
      cases hnone
    · rintro ⟨block, start, -, -, hle, -⟩
      rw [hzero, kSharedBufferPayloadOffset] at hle
      omega
  · rw [List.findIdx?_eq_some_iff_getElem]
    constructor
    · rintro ⟨hlt, hb, -⟩
      have hget := List.getElem?_eq_getElem hlt
      obtain ⟨h1, h2⟩ := (h.finds_iff hget).1 hb
      exact ⟨_, _, (List.getElem?_zip_eq_some.1 hget).1, (List.getElem?_zip_eq_some.1 hget).2, h1, h2⟩
    · rintro ⟨block, start, hblock, hstart, h1, h2⟩
      have hget : (w.broker.blocks.zip w.mappings)[b]? = some (block, start) :=
        List.getElem?_zip_eq_some.2 ⟨hblock, hstart⟩
      have hfinds := (h.finds_iff hget).2 ⟨h1, h2⟩
      obtain ⟨hlt, hitem⟩ := List.getElem?_eq_some_iff.1 hget
      refine ⟨hlt, by rw [hitem]; exact hfinds, fun j hj hother => ?_⟩
      -- two blocks would have the address
      have hget' := List.getElem?_eq_getElem (Nat.lt_trans hj hlt)
      have hjb := h.regions_wf.unique (region_get hget') (region_get hget) (h.region_mem hget' hother)
        (h.region_mem hget hfinds)
      omega

end Inv

/-- `find_block_for_ptr` finds the block whose payload the pointer is in; none where it is in a header or in what
another thread has mapped. At the start of a payload it finds what `Proc.World.findBlockForPtr` finds there. -/
theorem pointer_found (h : Reachable w) :
    (∀ ptr b, w.findBlockForPtr ptr = some b ↔ w.InPayload b ptr) ∧
      (∀ r ∈ w.elsewhere, ∀ ptr, r.Mem ptr → w.findBlockForPtr ptr = none) ∧
      (∀ b start ptr : Nat, w.mappings[b]? = some start → start ≤ ptr → ptr < start + kSharedBufferPayloadOffset →
        w.findBlockForPtr ptr = none) ∧
      ∀ (v : Proc.World) (b start : Nat) (block : SharedBufferBlock), v.pool.allBlocks.length = w.broker.blocks.length →
        w.mappings[b]? = some start → w.broker.blocks[b]? = some block → 0 < block.payloadSize →
          w.findBlockForPtr (start + kSharedBufferPayloadOffset) = v.findBlockForPtr (some b) := by
  have hinv := h.inv
  have hin : ∀ {ptr c : Nat}, w.findBlockForPtr ptr = some c →
    ∃ item, (w.broker.blocks.zip w.mappings)[c]? = some item ∧
      (World.region item).Mem ptr := by
    intro ptr c hc
    obtain ⟨block, start, hblock, hstart, h1, h2⟩ := hinv.findBlockForPtr_iff.1 hc
    have hget : (w.broker.blocks.zip w.mappings)[c]? = some (block, start) :=
      List.getElem?_zip_eq_some.2 ⟨hblock, hstart⟩
    exact ⟨_, hget, hinv.region_mem hget ((hinv.finds_iff hget).2 ⟨h1, h2⟩)⟩
  refine ⟨fun ptr b => hinv.findBlockForPtr_iff, fun r hr ptr hptr => ?_, fun b start ptr hb h1 h2 => ?_,
    fun v b start block hlen hstart hblock hpos => ?_⟩
  · by_contra hne
    obtain ⟨c, hc⟩ := Option.ne_none_iff_exists'.1 hne
    obtain ⟨item, hget, hmem⟩ := hin hc
    have hapart := List.pairwise_append.1 hinv.regions_wf.apart
    exact (hapart.2.2 _ (List.mem_map.2 ⟨item, List.mem_of_getElem? hget, rfl⟩) r hr).not_mem hmem hptr
  · by_contra hne
    obtain ⟨c, hc⟩ := Option.ne_none_iff_exists'.1 hne
    obtain ⟨item, hget, hmem⟩ := hin hc
    have hblt : b < w.broker.blocks.length := by
      rw [← hinv.mappings]
      exact (List.getElem?_eq_some_iff.1 hb).1
    have hget' : (w.broker.blocks.zip w.mappings)[b]? = some (w.broker.blocks[b], start) :=
      List.getElem?_zip_eq_some.2 ⟨List.getElem?_eq_getElem hblt, hb⟩
    have hsize := (hinv.made (List.getElem_mem hblt)).mappedSize
    have hpages := le_pages w.broker.blocks[b].mappedSize
    have hmem' : (World.region (w.broker.blocks[b], start)).Mem ptr := by
      simp only [Region.Mem, Region.stop, World.region]
      omega
    have hcb := hinv.regions_wf.unique (Inv.region_get hget) (Inv.region_get hget') hmem hmem'
    subst hcb
    obtain ⟨block, start', hblock, hstart', h1', -⟩ := hinv.findBlockForPtr_iff.1 hc
    rw [hb] at hstart'
    cases hstart'
    omega
  · have hfound : w.findBlockForPtr (start + kSharedBufferPayloadOffset) = some b :=
      hinv.findBlockForPtr_iff.2 ⟨block, start, hblock, hstart, Nat.le_refl _, by omega⟩
    have hlt : b < v.pool.allBlocks.length := by
      rw [hlen]
      exact (List.getElem?_eq_some_iff.1 hblock).1
    rw [hfound, Proc.World.findBlockForPtr, Option.filter_some, List.getElem?_eq_getElem hlt]
    rfl

/-- A pointer to the start of a payload, one to its header and one behind it, where a pool has one block. -/
theorem pointer_found_lifetime : ∃ w, Reachable w ∧ w.InPayload 0 4160 ∧ ¬ w.InPayload 0 4168 ∧
    w.findBlockForPtr 4100 = none := by
  have hrun : (Machine.run step started lifetime).map (fun w =>
      (w.findBlockForPtr 4160, w.findBlockForPtr 4168, w.mappings[0]?)) = some (some 0, none, some 4096) := by decide
  obtain ⟨w, hw, he⟩ := Option.map_eq_some_iff.1 hrun
  simp only [Prod.mk.injEq] at he
  obtain ⟨h1, h2, h3⟩ := he
  have hreach : Reachable w := Machine.Reach.run (.start started_init) hw
  obtain ⟨hiff, -, hheader, -⟩ := pointer_found hreach
  refine ⟨w, hreach, (hiff 4160 0).1 h1, fun hin => ?_, hheader 0 4096 4100 h3 (by decide) (by decide)⟩
  rw [(hiff 4168 0).2 hin] at h2
  cases h2

/-! ### The calls of the pool -/

/-- A pool in a run, with the system calls that it makes. -/
structure System where
  os : World := {}
  run : PoolRun := {}

inductive Event
  | construct (e : StartEnv)
  | allocate (payloadSize : Nat) (e : AllocEnv) (c : CreateEnv)
  | register (b : Nat) (e : RegisterEnv)
  | destroy (order : List (UInt32 × RegisteredBlock))
  | call (op : PoolOp)
  | other (op : Op)

/-- What `create_block` gets of the system calls; without memory it has no block either. -/
def answer (w : World) : Except Failure Nat → Except Exn Int
  | .ok b => .ok ((w.broker.blocks[b]?).elim 0 (·.nativeHandle))
  | .error (.exn x) => .error x
  | .error .badAlloc => .error (.runtimeError "std::bad_alloc")

namespace System

/-- An `allocate` finds an entry of its bucket, or makes a block with what its system calls answer. -/
def step (s : System) : Event → Option System
  | .construct e => (Linux.step s.os (.construct e)).map fun os => { os := os }
  | .allocate payloadSize e c =>
    if s.os.broker.alive = false then none
    else if payloadSize = 0 ∨ (Pool.scan e.attempt s.run.pool 0 (s.run.pool.bucket payloadSize)).2.isSome then
      (s.run.step (.allocate payloadSize { e with mapping := .ok 0 })).map fun run => { s with run := run }
    else do
      let (os, r) ← s.os.createBlock payloadSize c
      let run ← s.run.step (.allocate payloadSize { e with mapping := answer os r })
      return { os := os, run := run }
  | .register b e =>
    if s.os.broker.alive = false then none
    else do
      let (os, r) ← s.os.registerBlock e b
      let run ← s.run.step (.register b s.os.broker.euid s.os.broker.pid (r.map fun _ => ()))
      return { os := os, run := run }
  | .destroy order => (Linux.step s.os (.destroy order)).map fun os => { os := os }
  | .call op => if op.bare && s.os.broker.alive then (s.run.step op).map fun run => { s with run := run } else none
  | .other op => if op.foreign then (Linux.step s.os op).map fun os => { s with os := os } else none

def Init (s : System) : Prop := Linux.Init s.os ∧ s.run = {}

abbrev Reachable (s : System) : Prop := Machine.Reach step Init s

end System

/-- The pool notes what there is. -/
structure Matches (w : World) (pool : Pool) : Prop where
  next : pool.nextBlockId = w.nextBlockId
  identities : pool.identities = w.broker.blocks.map fun block => (block.blockId, block.nativeHandle)
  registered (id : UInt32) : pool.registeredBlocks id = (w.broker.registeredBlocks.lookup id).map (·.socketPath)

section
variable {pool pool' : Pool} {payloadSize n : Nat} {s s' : System}

namespace Matches

theorem same (h : Matches w pool) (hs : Pool.Same pool pool') : Matches w pool' where
  next := hs.next.trans h.next
  identities := hs.identities.trans h.identities
  registered id := (congrFun hs.registered id).trans (h.registered id)

theorem os (h : Matches w pool) (hn : w'.nextBlockId = w.nextBlockId) (hb : w'.broker.blocks = w.broker.blocks)
    (hr : w'.broker.registeredBlocks = w.broker.registeredBlocks) : Matches w' pool := by
  refine ⟨h.next.trans hn.symm, ?_, fun id => ?_⟩
  · rw [hb]
    exact h.identities
  · rw [hr]
    exact h.registered id

/-- Both make the block, or neither does. -/
theorem createBlock {c : CreateEnv} {r : Except Failure Nat} (h : Matches w pool) (hw : w.space.Wf addressLimit)
    (hc : w.createBlock payloadSize c = some (w', r)) :
    Matches w' (pool.createBlock payloadSize (answer w' r)).1 ∧
      ∀ b, r = .ok b ↔ (pool.createBlock payloadSize (answer w' r)).2 = .ok b := by
  rcases createBlock_outcome hw hc with @⟨t', next, x, -, hnext⟩ | @⟨fd, start, t, space, hsize, -, -⟩
  · obtain ⟨y, hy⟩ : ∃ y, answer { w.withTable t' with nextBlockId := next } (.error x) = .error y := by
      cases x with
      | badAlloc => exact ⟨_, rfl⟩
      | exn y => exact ⟨y, rfl⟩
    rw [hy]
    unfold Pool.createBlock
    split at hnext
    · rename_i hbig
      rw [if_pos hbig]
      exact ⟨h.os hnext rfl rfl, fun b => ⟨fun hb => (by cases hb), fun hb => (by cases hb)⟩⟩
    · rename_i hsmall
      rw [if_neg hsmall]
      have hdrawn : Matches { w.withTable t' with nextBlockId := next }
          { pool with nextBlockId := pool.nextBlockId + 1 } := by
        refine ⟨?_, h.identities, h.registered⟩
        show pool.nextBlockId + 1 = next
        rw [h.next, hnext]
      dsimp only
      split
      · exact ⟨hdrawn, fun b => ⟨fun hb => (by cases hb), fun hb => (by cases hb)⟩⟩
      · exact ⟨hdrawn, fun b => ⟨fun hb => (by cases hb), fun hb => (by cases hb)⟩⟩
  · have hsmall : ¬ payloadSize > sizeMax - kSharedBufferPayloadOffset := by
      simp only [offMax, sizeMax, kSharedBufferPayloadOffset] at hsize ⊢
      omega
    have hanswer : answer { w with
        broker := { w.broker with table := t, blocks := w.broker.blocks ++ [newBlock w payloadSize fd] }
        space := space
        mappings := w.mappings ++ [start]
        nextBlockId := w.nextBlockId + 1 } (.ok w.broker.blocks.length) = .ok (fd : Int) := by
      simp only [answer, List.getElem?_concat_length]
      rfl
    rw [hanswer]
    unfold Pool.createBlock
    rw [if_neg hsmall]
    dsimp only
    rw [if_neg (Nat.not_lt.2 hsize)]
    have hlen : pool.allBlocks.length = w.broker.blocks.length := by
      have hmaps := congrArg List.length h.identities
      rw [Pool.identities, List.length_map, List.length_map] at hmaps
      exact hmaps
    refine ⟨⟨?_, ?_, h.registered⟩, fun b => by
      rw [hlen]
      exact ⟨fun hb => (by cases hb; rfl), fun hb => (by cases hb; rfl)⟩⟩
    · show pool.nextBlockId + 1 = w.nextBlockId + 1
      rw [h.next]
    · show (pool.allBlocks ++ [_]).map _ = (w.broker.blocks ++ [newBlock w payloadSize fd]).map _
      rw [List.map_append, List.map_append]
      refine congrArg₂ (· ++ ·) h.identities ?_
      rw [List.map_singleton, List.map_singleton, h.next]
      rfl

/-- An `allocate` that finds nothing in its bucket. -/
theorem allocateNew {e : AllocEnv} {c : CreateEnv} {r : Except Failure Nat} (h : Matches w pool)
    (hw : w.space.Wf addressLimit) (hzero : payloadSize ≠ 0)
    (hscan : ¬ (Pool.scan e.attempt pool 0 (pool.bucket payloadSize)).2.isSome)
    (hc : w.createBlock payloadSize c = some (w', r)) :
    Matches w' (pool.allocate payloadSize { e with mapping := answer w' r }).1 ∧
      ∀ b, r = .ok b ↔ (pool.allocate payloadSize { e with mapping := answer w' r }).2 = .ok b := by
  unfold Pool.allocate
  rw [if_neg hzero]
  dsimp only
  obtain ⟨acts, -, ⟨hs, -⟩ | ⟨j, b, block, -, -, -, -, hs⟩⟩ := Pool.scan_spec e.attempt (pool.bucket payloadSize) pool 0
  · rw [hs]
    have hcreated := (h.same (.interfere acts)).createBlock hw hc
    unfold Pool.allocateNew
    dsimp only
    cases hp : (pool.interfere acts).createBlock payloadSize (answer w' r) with
    | mk pool₁ r₁ =>
      rw [hp] at hcreated
      cases r₁ with
      | error x => exact hcreated
      | ok b => exact ⟨hcreated.1.same (.handOut _), hcreated.2⟩
  · rw [hs] at hscan
    exact absurd rfl hscan

/-- An `allocate` that makes no system call. -/
theorem allocateReuse {e : AllocEnv} (h : Matches w pool)
    (hfree : payloadSize = 0 ∨ (Pool.scan e.attempt pool 0 (pool.bucket payloadSize)).2.isSome) :
    Matches w (pool.allocate payloadSize e).1 := by
  unfold Pool.allocate
  split
  · exact h
  · rename_i hzero
    dsimp only
    obtain ⟨acts, -, ⟨hs, -⟩ | ⟨j, b, block, -, -, -, -, hs⟩⟩ :=
      Pool.scan_spec e.attempt (pool.bucket payloadSize) pool 0
    · rw [hs] at hfree
      exact absurd (hfree.resolve_left hzero) Bool.false_ne_true
    · rw [hs]
      exact h.same (((Pool.Same.interfere acts).trans .modifyControl).trans
        ((Pool.Same.takeEntry _ _).trans (.handOut e)))

theorem block (h : Matches w pool) {b : Nat} {block : SharedBufferBlock} (hb : w.broker.blocks[b]? = some block) :
    ∃ x, pool.allBlocks[b]? = some x ∧ x.blockId = block.blockId ∧ x.nativeHandle = block.nativeHandle := by
  have hid := congrArg (·[b]?) h.identities
  simp only [Pool.identities, List.getElem?_map, hb, Option.map_some] at hid
  obtain ⟨x, hx, he⟩ := Option.map_eq_some_iff.1 hid
  exact ⟨x, hx, congrArg Prod.fst he, congrArg Prod.snd he⟩

/-- A registration binds the same path for both, is found by both or is refused by both. -/
theorem registerBlock {e : RegisterEnv} {r : Except Exn String} (h : Matches w pool) (hw : Inv w)
    (halive : w.broker.alive = true) (hr : w.registerBlock e b = some (w', r)) :
    Matches w' (pool.registerBlock b w.broker.euid w.broker.pid (r.map fun _ => ())).1 ∧
      (pool.registerBlock b w.broker.euid w.broker.pid (r.map fun _ => ())).2 = r := by
  obtain ⟨⟨broker, r'⟩, hr, hw'⟩ := Option.map_eq_some_iff.1 hr
  cases hw'
  obtain ⟨block, hb, -⟩ := Option.bind_eq_some_iff.1 hr
  obtain ⟨x, hx, hid, hfd⟩ := h.block hb
  unfold Pool.registerBlock
  rw [hx]
  dsimp only
  rw [hid, hfd, h.registered]
  have hnot : ¬ block.nativeHandle < 0 := Int.not_lt.2 (hw.made (List.mem_of_getElem? hb)).nativeHandle
  rcases Broker.registerBlock_outcome (hw.holds halive) hb hr with hneg | hlookup | ⟨hlookup, hrest, -, -⟩
    | ⟨hlookup, hpos, -, -, -⟩
  · rw [if_pos hneg]
    exact ⟨h, rfl⟩
  · rw [if_neg hnot, hlookup]
    exact ⟨h, rfl⟩
  · rw [if_neg hnot, hlookup]
    exact ⟨h.os rfl hrest.blocks hrest.registeredBlocks, rfl⟩
  · rw [if_neg hnot, hlookup]
    have hsame : Pool.Same pool (pool.modifyBlock b fun x => { x with
        socketPath := blockSocketPath w.broker.euid w.broker.pid block.blockId block.nativeHandle }) :=
      .modifyBlock fun _ => ⟨rfl, rfl⟩
    have hids : (w.broker.blocks.set b { block with socketPath := w.broker.pathOf block }).map
        (fun block => (block.blockId, block.nativeHandle)) =
          w.broker.blocks.map fun block => (block.blockId, block.nativeHandle) := Inv.map_registered _ _ rfl hb
    refine ⟨⟨hsame.next.trans h.next, (hsame.identities.trans h.identities).trans hids.symm, fun id => ?_⟩, rfl⟩
    show Function.update pool.registeredBlocks block.blockId (some (w.broker.pathOf block)) id =
      (List.lookup id ((block.blockId, _) :: w.broker.registeredBlocks)).map _
    rw [Function.update_apply, List.lookup_cons]
    split
    · rename_i heq
      rw [heq, beq_self_eq_true]
      rfl
    · rename_i hne
      rw [beq_eq_false_iff_ne.2 hne]
      exact h.registered id

theorem construct {e : StartEnv} {r : Except Failure Unit} (halive : w.broker.alive = false)
    (hc : w.construct e = some (w', r)) (hup : w'.broker.alive = true) : Matches w' {} := by
  unfold World.construct at hc
  split at hc
  · cases hc
    rw [halive] at hup
    cases hup
  · split at hc
    · cases hc
      exact ⟨rfl, rfl, fun _ => rfl⟩
    · obtain ⟨t₁, -, hc⟩ := Option.bind_eq_some_iff.1 hc
      split at hc
      · cases hc
        exact ⟨rfl, rfl, fun _ => rfl⟩
      · obtain ⟨t₂, -, hc⟩ := Option.bind_eq_some_iff.1 hc
        split at hc
        · cases hc
          exact ⟨rfl, rfl, fun _ => rfl⟩
        · split at hc
          · cases hc
            change w.broker.alive = true at hup
            rw [halive] at hup
            cases hup
          · cases hc
            exact ⟨rfl, rfl, fun _ => rfl⟩

/-- The pool does not notice what other threads do. -/
theorem foreign {op : Op} (hop : op.foreign = true) (hst : Linux.step w op = some w') :
    w'.broker.alive = w.broker.alive ∧ (Matches w pool → Matches w' pool) := by
  cases op with
  | openOther n x =>
    obtain ⟨t, -, rfl⟩ := Option.map_eq_some_iff.1 hst
    exact ⟨rfl, fun h => h.os rfl rfl rfl⟩
  | closeOther n =>
    simp only [Linux.step] at hst
    split at hst
    · cases hst
      exact ⟨rfl, fun h => h.os rfl rfl rfl⟩
    · cases hst
  | mapOther r =>
    obtain ⟨space, -, rfl⟩ := Option.map_eq_some_iff.1 hst
    exact ⟨rfl, fun h => h.os rfl rfl rfl⟩
  | unmapOther r =>
    simp only [Linux.step] at hst
    split at hst
    · cases hst
      exact ⟨rfl, fun h => h.os rfl rfl rfl⟩
    · cases hst
  | construct e => cases hop
  | createBlock payloadSize e => cases hop
  | registerBlock e b => cases hop
  | destroy order => cases hop

/-- A call without system calls leaves alone what the pool notes of them. -/
theorem bare {run run' : PoolRun} {op : PoolOp} (h : Matches w run.pool) (hop : op.bare = true)
    (hst : run.step op = some run') : Matches w run'.pool := by
  cases op with
  | free block =>
    cases hst
    exact h.same (.free block)
  | markPublished b now =>
    cases hst
    exact h.same (.markPublished now)
  | assignUid b uid =>
    cases hst
    exact h.same (.assignUid uid)
  | outside act =>
    cases hst
    exact h.same .outsideStep
  | allocate payloadSize e => cases hop
  | register b euid pid socket => cases hop

end Matches

theorem pool_of_allocate {run run' : PoolRun} {e : AllocEnv} (h : run.step (.allocate payloadSize e) = some run') :
    run'.pool = (run.pool.allocate payloadSize e).1 := by
  unfold PoolRun.step at h
  dsimp only at h
  split at h
  · rename_i hp
    cases h
    rw [hp]
  · rename_i hp
    cases h
    rw [hp]

/-- The pool in a run of the model in which no descriptor is negative. -/
def Modelled (run : PoolRun) : Prop := ∃ i, Machine.Reach IdRun.step (· = {}) i ∧ i.run = run

theorem Modelled.next {run run' : PoolRun} {op : PoolOp} (h : Modelled run) (hop : op.onLinux = true)
    (hst : run.step op = some run') : Modelled run' := by
  obtain ⟨i, hi, rfl⟩ := h
  have hstep : IdRun.step i op = (i.run.step op).map _ := if_pos hop
  rw [hst, Option.map_some] at hstep
  exact ⟨_, .next hi trivial hstep, rfl⟩

theorem answer_onLinux {r : Except Failure Nat} {e : AllocEnv} (h : Inv w) :
    (PoolOp.allocate payloadSize { e with mapping := answer w r }).onLinux = true := by
  cases r with
  | ok b =>
    simp only [answer, PoolOp.onLinux, decide_eq_true_eq]
    cases hb : w.broker.blocks[b]? with
    | none => exact Int.le_refl 0
    | some block => exact (h.made (List.mem_of_getElem? hb)).nativeHandle
  | error x =>
    cases x with
    | badAlloc => rfl
    | exn x => rfl

/-- What holds of a pool and its system calls in every run. -/
structure System.Sound (s : System) : Prop where
  os : Linux.Reachable s.os
  run : Modelled s.run
  pool : s.os.broker.alive = true → Matches s.os s.run.pool

theorem System.Sound.step {event : Event} (h : s.Sound) (hst : s.step event = some s') : s'.Sound := by
  cases event with
  | construct e =>
    obtain ⟨os, hos, rfl⟩ := Option.map_eq_some_iff.1 hst
    refine ⟨.next h.os trivial hos, ⟨{}, .start rfl, rfl⟩, fun hup => ?_⟩
    simp only [Linux.step] at hos
    split at hos
    · cases hos
    · rename_i hdead
      obtain ⟨⟨os', r⟩, hc, rfl⟩ := Option.map_eq_some_iff.1 hos
      exact Matches.construct (Bool.eq_false_iff.2 hdead) hc hup
  | allocate payloadSize e c =>
    simp only [System.step] at hst
    split at hst
    · cases hst
    · rename_i halive
      have halive : s.os.broker.alive = true := Bool.not_eq_false _ ▸ halive
      split at hst
      · rename_i hfree
        obtain ⟨run, hrun, rfl⟩ := Option.map_eq_some_iff.1 hst
        refine ⟨h.os, h.run.next rfl hrun, fun _ => ?_⟩
        rw [pool_of_allocate hrun]
        exact (h.pool halive).allocateReuse hfree
      · rename_i hfree
        obtain ⟨hzero, hscan⟩ := not_or.1 hfree
        obtain ⟨⟨os, r⟩, hc, hst⟩ := Option.bind_eq_some_iff.1 hst
        obtain ⟨run, hrun, hst⟩ := Option.bind_eq_some_iff.1 hst
        cases hst
        have hos : Linux.step s.os (.createBlock payloadSize c) = some os := by
          simp only [Linux.step]
          rw [if_pos halive, hc]
          rfl
        have hreach : Linux.Reachable os := .next h.os trivial hos
        refine ⟨hreach, h.run.next (answer_onLinux hreach.inv) hrun, fun _ => ?_⟩
        rw [pool_of_allocate hrun]
        exact ((h.pool halive).allocateNew h.os.inv.space hzero hscan hc).1
  | register b e =>
    simp only [System.step] at hst
    split at hst
    · cases hst
    · rename_i halive
      have halive : s.os.broker.alive = true := Bool.not_eq_false _ ▸ halive
      obtain ⟨⟨os, r⟩, hr, hst⟩ := Option.bind_eq_some_iff.1 hst
      obtain ⟨run, hrun, hst⟩ := Option.bind_eq_some_iff.1 hst
      cases hst
      have hos : Linux.step s.os (.registerBlock e b) = some os := by
        simp only [Linux.step]
        rw [if_pos halive, hr]
        rfl
      refine ⟨.next h.os trivial hos, h.run.next rfl hrun, fun _ => ?_⟩
      cases hrun
      exact ((h.pool halive).registerBlock h.os.inv halive hr).1
  | destroy order =>
    obtain ⟨os, hos, rfl⟩ := Option.map_eq_some_iff.1 hst
    refine ⟨.next h.os trivial hos, ⟨{}, .start rfl, rfl⟩, fun hup => ?_⟩
    simp only [Linux.step] at hos
    split at hos
    · rename_i halive
      have hdead := (h.os.inv.destroy halive hos).2
      dsimp only at hup
      rw [hdead] at hup
      cases hup
    · cases hos
  | call op =>
    simp only [System.step] at hst
    split at hst
    · rename_i hop
      obtain ⟨hbare, halive⟩ := (Bool.and_eq_true ..).mp hop
      obtain ⟨run, hrun, rfl⟩ := Option.map_eq_some_iff.1 hst
      refine ⟨h.os, h.run.next ?_ hrun, fun _ => (h.pool halive).bare hbare hrun⟩
      cases op with
      | allocate payloadSize e => cases hbare
      | register b euid pid socket => cases hbare
      | free block => rfl
      | markPublished b now => rfl
      | assignUid b uid => rfl
      | outside act => rfl
    · cases hst
  | other op =>
    simp only [System.step] at hst
    split at hst
    · rename_i hop
      obtain ⟨os, hos, rfl⟩ := Option.map_eq_some_iff.1 hst
      obtain ⟨halive, hpool⟩ : os.broker.alive = s.os.broker.alive ∧
        (Matches s.os s.run.pool → Matches os s.run.pool) :=
        Matches.foreign hop hos
      exact ⟨.next h.os trivial hos, h.run, fun hup => hpool (h.pool (halive.symm.trans hup))⟩
    · cases hst

theorem System.Reachable.sound (h : System.Reachable s) : s.Sound :=
  Machine.ReachIf.inv (fun _ hs => ⟨.start hs.1, ⟨{}, .start rfl, hs.2.symm⟩, fun hup => by
    rw [hs.1.broker] at hup
    cases hup⟩) (fun _ _ _ hs _ hst => hs.step hst) h

/-- A pool on Linux is a pool as it is modelled call by call, and each of its blocks has the memfd that was created for
it, under the number that it notes. A new block is what the system calls bring, and a registration answers what they do,
path or error. -/
theorem pool_on_linux (h : System.Reachable s) : Modelled s.run ∧
    (s.os.broker.alive = true → Matches s.os s.run.pool ∧
      (∀ b block, s.run.pool.allBlocks[b]? = some block →
        0 ≤ block.nativeHandle ∧ s.os.broker.table.object block.nativeHandle.toNat = some (.memfd b)) ∧
      (∀ (payloadSize : Nat) (e : AllocEnv) c os r, payloadSize ≠ 0 →
        ¬ (Pool.scan e.attempt s.run.pool 0 (s.run.pool.bucket payloadSize)).2.isSome →
        s.os.createBlock payloadSize c = some (os, r) → ∀ b, r = .ok b ↔
          (s.run.pool.allocate payloadSize { e with mapping := answer os r }).2 = .ok b) ∧
      ∀ b e os r, s.os.registerBlock e b = some (os, r) →
        (s.run.pool.registerBlock b s.os.broker.euid s.os.broker.pid (r.map fun _ => ())).2 = r) := by
  have hs := h.sound
  refine ⟨hs.run, fun halive => ⟨hs.pool halive, fun b block hb => ?_, fun payloadSize e c os r hzero hscan hc =>
    ((hs.pool halive).allocateNew hs.os.inv.space hzero hscan hc).2, fun b e os r hr =>
      ((hs.pool halive).registerBlock hs.os.inv halive hr).2⟩⟩
  have hid : (s.os.broker.blocks.map fun block => (block.blockId, block.nativeHandle))[b]? =
      some (block.blockId, block.nativeHandle) := by
    rw [← (hs.pool halive).identities]
    exact IdRun.identities_get hb
  rw [List.getElem?_map] at hid
  obtain ⟨x, hx, he⟩ := Option.map_eq_some_iff.1 hid
  have hfd : x.nativeHandle = block.nativeHandle := congrArg Prod.snd he
  rw [← hfd]
  exact ⟨(hs.os.inv.made (List.mem_of_getElem? hx)).nativeHandle, hs.os.inv.object hx⟩

end

/-- A block is made, published, freed and taken again; a second one is made at the second try. -/
def session : List Event :=
  [.construct { epollCreate := some 3, eventfd := some 4 },
    .allocate 8 {} { memfdCreate := some 5, mmap := some 4096 }, .register 0 { socket := some 6, dup := some 7 },
    .call (.free (some 0)), .allocate 8 {} {}, .allocate 16 {} { memfdCreate := some 8, ftruncate := false },
    .other (.openOther 8 .event), .allocate 16 {} { memfdCreate := some 9, mmap := some 8192 }]

theorem pool_on_linux_session : ∃ s, System.Reachable s ∧ s.run.held = [1, 0] ∧
    s.run.pool.identities = [(0, 5), (2, 9)] ∧ Modelled s.run ∧ Matches s.os s.run.pool := by
  have hrun : (Machine.run System.step { os := started } session).map (fun s =>
      (s.os.broker.alive, s.run.held, s.run.pool.identities)) = some (true, [1, 0], [(0, 5), (2, 9)]) := by decide
  obtain ⟨s, hs, he⟩ := Option.map_eq_some_iff.1 hrun
  simp only [Prod.mk.injEq] at he
  obtain ⟨h1, h2, h3⟩ := he
  have hreach : System.Reachable s := Machine.Reach.run (.start ⟨started_init, rfl⟩) hs
  exact ⟨s, hreach, h2, h3, (pool_on_linux hreach).1, ((pool_on_linux hreach).2 h1).1⟩

end Linux

end MemfdBuffer
