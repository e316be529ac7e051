import MemfdBuffer.Atomic.Step

/-!
# What an action can do

`Step w a w'` lists the ways one action changes the world, guards included; `step_sound` says that
`step` takes no others. Invariants are proved by cases on `Step` and never unfold an action.
-/

namespace MemfdBuffer.Atomic

/-- Pool moves that touch no block. -/
inductive PcMove (w : World) (p : Nat) : AllocPc → AllocPc → Prop
  | begin {size : Nat} : PcMove w p .idle (.scan size)
  | load {size b : Nat} {blk : PhysBlock} (hb : w.blocks[b]? = some blk) (hp : blk.pool = p)
      (hu : blk.inUse = false) :
      PcMove w p (.scan size) (.loaded size b blk.control.publishTimestampUs w.descs.length)
  | pass {size b published made : Nat} (hg : withinGrace published w.clock = false) :
      PcMove w p (.loaded size b published made) (.checked size b published made)
  | graced {size b published made : Nat} : PcMove w p (.loaded size b published made) (.scan size)
  | missed {size b published made : Nat} : PcMove w p (.checked size b published made) (.scan size)
  | threw {size : Nat} : PcMove w p (.scan size) .idle

/-- Tasks that start. -/
inductive Begins (w : World) : Task → Prop
  | import {j : Nat} {r : DescRec} (hj : w.descs[j]? = some r) (hc : checkDescriptor r.d = .ok ()) :
      Begins w (.validate j)
  | rejected : Begins w .threw
  | read {i b : Nat} {s : BufSlot} (hs : w.holdsBuf i s) (hb : s.buf.control = some b) :
      Begins w (.acquireLoad b (.reading i s))
  | hold {i b : Nat} {s : BufSlot} (hs : w.holdsBuf i s) (hb : s.buf.control = some b)
      (hl : s.buf.heldReaderLease = none) : Begins w (.acquireLoad b (.holding i s))
  | relay {i : Nat} {s : BufSlot} (hs : w.holdsBuf i s) (hd : s.buf.hasIpcDescriptor = true) :
      Begins w (.relayCheck i s)
  | nullptr {i : Nat} {s : BufSlot} (hs : w.holdsBuf i s) (hd : s.buf.hasIpcDescriptor = false) :
      Begins w (.returned s none)

/-- Task moves that touch neither shared memory nor an object. -/
inductive TaskMove (w : World) : Task → Task → Prop
  | validated {j : Nat} {r : DescRec} {blk : PhysBlock} (hj : w.descs[j]? = some r)
      (hb : w.blocks[r.blk]? = some blk)
      (hv : validateMapping blk.control blk.mappedSize r.d.sharedBufferBlockSize r.d.size r.d.ipcUid =
        .ok ()) : TaskMove w (.validate j) (.acquireLoad r.blk (.importing j))
  | invalid {j : Nat} : TaskMove w (.validate j) .threw
  | loaded {b : Nat} {blk : PhysBlock} {why : AcquireFor} (hb : w.blocks[b]? = some blk) :
      TaskMove w (.acquireLoad b why) (.acquireCas b blk.control.readerState why)
  | retry {b : Nat} {value : BitVec 32} {blk : PhysBlock} {why : AcquireFor}
      (hb : w.blocks[b]? = some blk) :
      TaskMove w (.acquireCas b value why) (.acquireCas b blk.control.readerState why)
  | refused {b : Nat} {value : BitVec 32} {why : AcquireFor}
      (hr : readerRefused value = true) : TaskMove w (.acquireCas b value why) .threw
  | stale {b j gen : Nat} : TaskMove w (.recheck b j gen) (.undo b)
  | custom {tag : Nat} {es : List Effect} {after : After} :
      TaskMove w (.teardown (.custom tag :: es) after) (.teardown es after)
  | destroyed : TaskMove w (.teardown [] .destroyed) .done
  | relayed {i b : Nat} {s : BufSlot} {blk : PhysBlock} (hs : w.holdsBuf i s)
      (hc : s.buf.control = some b) (hb : w.blocks[b]? = some blk)
      (ha : relayAccepts s.buf blk.control = true) :
      TaskMove w (.relayCheck i s) (.readClock i s (relayDescriptor s.buf))
  | fellBack {i b : Nat} {s : BufSlot} {blk : PhysBlock} (hs : w.holdsBuf i s)
      (hc : s.buf.control = some b) (hb : w.blocks[b]? = some blk)
      (ha : relayAccepts s.buf blk.control = false) :
      TaskMove w (.relayCheck i s) (.returned s none)
  | clock {i : Nat} {s : BufSlot} {d : SharedBufferDescriptor} (hs : w.holdsBuf i s) :
      TaskMove w (.readClock i s d) (.storeStamp i s d w.clock)

inductive Step (w : World) : Act → World → Prop
  | stay {a : Act} : Step w a w
  | tick {us : Nat} : Step w (.tick us) { w with clock := w.clock + us }
  | pool {a : Act} {p : Nat} {pc : AllocPc} (h : PcMove w p (w.pools p) pc) : Step w a (w.setPool p pc)
  | claim {p size b published made : Nat} {uid : UInt64} {blk : PhysBlock}
      (hp : w.pools p = .checked size b published made) (hb : w.blocks[b]? = some blk)
      (hr : blk.control.readerState = 0#32) :
      Step w (.allocCas p uid)
        ((w.setBlock b ((blk.taken uid).withControl
          { blk.control with readerState := kSharedBufferReuseClaimed })).setPool p (.chosen b false))
  | create {a : Act} {p size : Nat} {pid fd : Int} {id : UInt32} {payload : List UInt8} {uid : UInt64}
      (hp : w.pools p = .scan size) (hl : payload.length = size) :
      Step w a ((w.addBlock (.created p pid fd id size payload uid)).setPool p
        (.chosen w.blocks.length true))
  | clearUid {a : Act} {p b : Nat} {fresh : Bool} {blk : PhysBlock} (hp : w.pools p = .chosen b fresh)
      (hb : w.blocks[b]? = some blk) :
      Step w a ((w.setBlock b (blk.withControl { blk.control with ipcUid := 0 })).setPool p
        (.uidCleared b fresh))
  | clearStamp {a : Act} {p b : Nat} {fresh : Bool} {blk : PhysBlock}
      (hp : w.pools p = .uidCleared b fresh) (hb : w.blocks[b]? = some blk) :
      Step w a ((w.setBlock b (blk.withControl { blk.control with publishTimestampUs := 0 })).setPool p
        (.stampCleared b fresh))
  | dropClaim {a : Act} {p b : Nat} {fresh : Bool} {blk : PhysBlock}
      (hp : w.pools p = .stampCleared b fresh) (hb : w.blocks[b]? = some blk) :
      Step w a (((w.setBlock b
        { blk with control := blk.control.releaseReuseClaim, ready := true }).setPool p .idle).addBuf
          { buf := .allocated b blk.toSharedBufferBlock blk.payloadSize, gen := blk.gen })
  | begins {a : Act} {k : Task} (h : Begins w k) : Step w a (w.addTask k)
  | publish {a : Act} {i b : Nat} {s : BufSlot} {blk : PhysBlock} {ipcName name : String}
      (hs : w.holdsBuf i s) (hd : s.buf.dataPtr = some b) (hb : w.blocks[b]? = some blk)
      (hl : s.buf.deleter = .poolFree b) (hn : name ≠ "")
      (hname : name = if blk.socketPath = "" then ipcName else blk.socketPath) :
      Step w a ((w.setBlock b { blk with socketPath := name }).addTask (.storeUid i s
        (ownerDescriptor s.buf.size blk.pid blk.toSharedBufferBlock name blk.currentUid)))
  | readPlain {a : Act} {i : Nat} {s : BufSlot} (hs : w.holdsBuf i s) (hc : s.buf.control = none) :
      Step w a (w.addRead { handle := { dataPtr := s.buf.dataPtr, owner := s.buf.owner }, gen := s.gen })
  | newBuf {a : Act} : Step w a (w.addBuf { buf := {} })
  | moveBuf {a : Act} {i : Nat} {s : BufSlot} (hs : w.holdsBuf i s) :
      Step w a ((w.setBuf i (some { buf := {} })).addBuf s)
  | tearBuf {a : Act} {i : Nat} {s : BufSlot} {after : After} (hs : w.holdsBuf i s) :
      Step w a ((w.setBuf i none).addTask (.teardown s.buf.resetEffects after))
  | moveRead {a : Act} {h : Nat} {s : ReadSlot} (hs : w.reads[h]? = some (some s)) :
      Step w a ((w.setRead h (some { handle := {} })).addRead s)
  | tearRead {a : Act} {h : Nat} {s : ReadSlot} {after : After} (hs : w.reads[h]? = some (some s)) :
      Step w a ((w.setRead h none).addTask (.teardown s.handle.releaseEffects after))
  | write {a : Act} {i b k : Nat} {v : UInt8} {s : BufSlot} {blk : PhysBlock} (hs : w.holdsBuf i s)
      (hd : s.buf.dataPtr = some b) (hb : w.blocks[b]? = some blk) (hu : blk.published = false) :
      Step w a (w.setBlock b { blk with payload := blk.payload.set k v })
  | sawBuf {a : Act} {i j b k : Nat} {v : UInt8} {s : BufSlot} {blk : PhysBlock} (hs : w.holdsBuf i s)
      (hj : s.src = some j) (hd : s.buf.dataPtr = some b) (hb : w.blocks[b]? = some blk)
      (hv : blk.payload[k]? = some v) : Step w a (w.addSeen (j, k, v))
  | sawRead {a : Act} {h j b k : Nat} {v : UInt8} {s : ReadSlot} {blk : PhysBlock}
      (hs : w.reads[h]? = some (some s)) (hj : s.src = some j) (hd : s.handle.dataPtr = some b)
      (hb : w.blocks[b]? = some blk) (hv : blk.payload[k]? = some v) :
      Step w a (w.addSeen (j, k, v))
  | task {a : Act} {t : Nat} {k k' : Task} (ht : w.tasks[t]? = some k) (h : TaskMove w k k') :
      Step w a (w.setTask t k')
  | acquireImport {a : Act} {t b j : Nat} {blk : PhysBlock}
      (ht : w.tasks[t]? = some (.acquireCas b blk.control.readerState (.importing j)))
      (hb : w.blocks[b]? = some blk) (hr : readerRefused blk.control.readerState = false) :
      Step w a ((w.setBlock b (blk.withControl
        { blk.control with readerState := blk.control.readerState + 1#32 })).setTask t
          (.recheck b j blk.gen))
  | acquireRead {a : Act} {t b i : Nat} {s : BufSlot} {blk : PhysBlock}
      (ht : w.tasks[t]? = some (.acquireCas b blk.control.readerState (.reading i s)))
      (hb : w.blocks[b]? = some blk) (hr : readerRefused blk.control.readerState = false)
      (hs : w.holdsBuf i s) :
      Step w a (((w.setBlock b (blk.withControl
        { blk.control with readerState := blk.control.readerState + 1#32 })).addRead
          { handle := { dataPtr := s.buf.dataPtr, state := s.buf.handleState, readerLease := some b,
                        owner := s.buf.owner }
            gen := s.gen, src := s.src }).setTask t .done)
  | acquireHold {a : Act} {t b i : Nat} {s : BufSlot} {blk : PhysBlock}
      (ht : w.tasks[t]? = some (.acquireCas b blk.control.readerState (.holding i s)))
      (hb : w.blocks[b]? = some blk) (hr : readerRefused blk.control.readerState = false)
      (hs : w.holdsBuf i s) :
      Step w a (((w.setBlock b (blk.withControl
        { blk.control with readerState := blk.control.readerState + 1#32 })).setBuf i
          (some { s with buf := s.buf.withLease (some b) })).setTask t .done)
  | imported {a : Act} {t b j gen : Nat} {r : DescRec} {blk : PhysBlock}
      (ht : w.tasks[t]? = some (.recheck b j gen)) (hj : w.descs[j]? = some r)
      (hb : w.blocks[b]? = some blk) (hu : blk.control.ipcUid = r.d.ipcUid) :
      Step w a ((w.addBuf { buf := .imported b r.d, gen := gen, src := some j }).setTask t .done)
  | undo {a : Act} {t b : Nat} {blk : PhysBlock} (ht : w.tasks[t]? = some (.undo b))
      (hb : w.blocks[b]? = some blk) :
      Step w a ((w.setBlock b (blk.withControl blk.control.releaseReader)).setTask t .threw)
  | release {a : Act} {t b : Nat} {es : List Effect} {after : After} {blk : PhysBlock}
      (ht : w.tasks[t]? = some (.teardown (.releaseReader b :: es) after))
      (hb : w.blocks[b]? = some blk) :
      Step w a ((w.setBlock b (blk.withControl blk.control.releaseReader)).setTask t
        (.teardown es after))
  | free {a : Act} {t b : Nat} {es : List Effect} {after : After} {blk : PhysBlock}
      (ht : w.tasks[t]? = some (.teardown (.poolFree b :: es) after))
      (hb : w.blocks[b]? = some blk) (hp : w.pools blk.pool = .idle) :
      Step w a ((w.setBlock b { blk with inUse := false }).setTask t (.teardown es after))
  | finishBuf {a : Act} {t dst src : Nat} {s : BufSlot}
      (ht : w.tasks[t]? = some (.teardown [] (.assignBuf dst src))) (hs : w.holdsBuf src s)
      (hd : w.bufs[dst]? = some none) :
      Step w a (((w.setBuf dst (some s)).setBuf src (some { buf := {} })).setTask t .done)
  | finishRead {a : Act} {t dst src : Nat} {s : ReadSlot}
      (ht : w.tasks[t]? = some (.teardown [] (.assignRead dst src)))
      (hs : w.reads[src]? = some (some s)) (hd : w.reads[dst]? = some none) :
      Step w a (((w.setRead dst (some s)).setRead src (some { handle := {} })).setTask t .done)
  | storeUid {a : Act} {t i b : Nat} {s : BufSlot} {d : SharedBufferDescriptor} {blk : PhysBlock}
      (ht : w.tasks[t]? = some (.storeUid i s d)) (hs : w.holdsBuf i s)
      (hc : s.buf.control = some b) (hb : w.blocks[b]? = some blk) :
      Step w a ((w.setBlock b
        { blk with
          control := { blk.control with ipcUid := blk.currentUid }, published := true }).setTask t
            (.readClock i s d))
  | storeStamp {t i b now : Nat} {spurious : Bool} {s : BufSlot} {d : SharedBufferDescriptor}
      {blk : PhysBlock} (ht : w.tasks[t]? = some (.storeStamp i s d now)) (hs : w.holdsBuf i s)
      (hc : s.buf.control = some b) (hb : w.blocks[b]? = some blk) :
      Step w (.task t spurious) (((w.setBlock b
        (blk.withControl { blk.control with publishTimestampUs := now })).addDesc
          { d := d, blk := b, gen := s.gen, time := w.clock, bytes := blk.payload, parent := s.src }).setTask t
            (.returned s (some w.descs.length)))

section
variable {w w' : World}

theorem bind_slot {α β : Type} {l : List (Option α)} {i : Nat} {f : α → Option β} {x : β}
    (h : (do let s ← (← l[i]?); f s) = some x) : ∃ s, l[i]? = some (some s) ∧ f s = some x := by
  obtain ⟨o, ho, h⟩ := Option.bind_eq_some_iff.1 h
  obtain ⟨s, hs, h⟩ := Option.bind_eq_some_iff.1 h
  exact ⟨s, by rw [ho, hs], h⟩

theorem allocLoad_sound {a : Act} {p b : Nat} (h : w.allocLoad p b = some w') : Step w a w' := by
  unfold World.allocLoad at h
  split at h
  · rename_i size hpc
    obtain ⟨blk, hb, h⟩ := Option.bind_eq_some_iff.1 h
    split at h
    · cases h
      exact .pool (hpc ▸ .load hb (by tauto) (by tauto))
    · cases h
  · cases h

theorem allocTest_sound {a : Act} {p : Nat} (h : w.allocTest p = some w') : Step w a w' := by
  unfold World.allocTest at h
  split at h
  · rename_i size b published made hpc
    split at h
    · cases h; exact .pool (hpc ▸ .graced)
    · rename_i hg
      cases h; exact .pool (hpc ▸ .pass (by simpa using hg))
  · cases h

theorem allocCas_sound {p : Nat} {uid : UInt64} (h : w.allocCas p uid = some w') :
    Step w (.allocCas p uid) w' := by
  unfold World.allocCas at h
  split at h
  · rename_i size b published made hpc
    obtain ⟨blk, hb, h⟩ := Option.bind_eq_some_iff.1 h
    unfold SharedBufferControlHeader.tryClaimReuse at h
    by_cases hr : blk.control.readerState = 0#32
    · rw [if_pos hr] at h
      cases h; exact .claim hpc hb hr
    · rw [if_neg hr] at h
      cases h; exact .pool (hpc ▸ .missed)
  · cases h

theorem allocCreate_sound {a : Act} {p : Nat} {pid fd : Int} {id : UInt32} {payload : List UInt8}
    {uid : UInt64} (h : w.allocCreate p pid fd id payload uid = some w') : Step w a w' := by
  unfold World.allocCreate at h
  split at h
  · rename_i size hpc
    split at h
    · cases h; exact .create hpc (by tauto)
    · cases h
  · cases h

theorem beginImport_sound {a : Act} {j : Nat} (h : w.beginImport j = some w') : Step w a w' := by
  obtain ⟨r, hj, h⟩ := Option.bind_eq_some_iff.1 h
  split at h
  · rename_i hc
    cases h; exact .begins (.import hj hc)
  · cases h; exact .begins .rejected

theorem beginRead_sound {a : Act} {i : Nat} (h : w.beginRead i = some w') : Step w a w' := by
  obtain ⟨s, hs, h⟩ := bind_slot h
  split at h
  · rename_i b hb
    cases h; exact .begins (.read hs hb)
  · rename_i hc
    cases h; exact .readPlain hs hc

theorem beginHold_sound {a : Act} {i : Nat} (h : w.beginHold i = some w') : Step w a w' := by
  obtain ⟨s, hs, h⟩ := bind_slot h
  split at h
  · rename_i b hl hb
    cases h; exact .begins (.hold hs hb hl)
  · cases h; exact .stay

theorem beginPublish_sound {a : Act} {i : Nat} {ipcName : String}
    (h : w.beginPublish i ipcName = some w') : Step w a w' := by
  obtain ⟨s, hs, h⟩ := bind_slot h
  obtain ⟨b, hd, h⟩ := Option.bind_eq_some_iff.1 h
  obtain ⟨blk, hb, h⟩ := Option.bind_eq_some_iff.1 h
  split at h
  · rename_i hg
    dsimp only at h
    generalize hname : (if blk.socketPath = "" then ipcName else blk.socketPath) = name at h
    split at h
    · cases h; exact .begins (.nullptr hs hg.1)
    · rename_i hn
      cases h; exact .publish hs hd hb hg.2 hn hname.symm
  · cases h

theorem beginRelay_sound {a : Act} {i : Nat} (h : w.beginRelay i = some w') : Step w a w' := by
  obtain ⟨s, hs, h⟩ := bind_slot h
  split at h
  · rename_i hd
    cases h; exact .begins (.relay hs hd)
  · rename_i hd
    split at h
    · cases h; exact .begins (.nullptr hs (by simpa using hd))
    · cases h

theorem writeByte_sound {a : Act} {i k : Nat} {v : UInt8} (h : w.writeByte i k v = some w') :
    Step w a w' := by
  obtain ⟨s, hs, h⟩ := bind_slot h
  obtain ⟨b, hd, h⟩ := Option.bind_eq_some_iff.1 h
  obtain ⟨blk, hb, h⟩ := Option.bind_eq_some_iff.1 h
  split at h
  · rename_i hg
    cases h; exact .write hs hd hb hg.2.1
  · cases h

theorem readByte_sound {a : Act} {i k : Nat} (h : w.readByte i k = some w') : Step w a w' := by
  obtain ⟨s, hs, h⟩ := bind_slot h
  obtain ⟨j, hj, h⟩ := Option.bind_eq_some_iff.1 h
  obtain ⟨b, hd, h⟩ := Option.bind_eq_some_iff.1 h
  obtain ⟨blk, hb, h⟩ := Option.bind_eq_some_iff.1 h
  obtain ⟨v, hv, h⟩ := Option.bind_eq_some_iff.1 h
  cases h; exact .sawBuf hs hj hd hb hv

theorem readByteVia_sound {a : Act} {i k : Nat} (h : w.readByteVia i k = some w') :
    Step w a w' := by
  obtain ⟨s, hs, h⟩ := bind_slot h
  obtain ⟨j, hj, h⟩ := Option.bind_eq_some_iff.1 h
  obtain ⟨b, hd, h⟩ := Option.bind_eq_some_iff.1 h
  obtain ⟨blk, hb, h⟩ := Option.bind_eq_some_iff.1 h
  obtain ⟨v, hv, h⟩ := Option.bind_eq_some_iff.1 h
  cases h; exact .sawRead hs hj hd hb hv

theorem validate_sound {a : Act} {t j : Nat} (ht : w.tasks[t]? = some (.validate j))
    (h : w.validate t j = some w') : Step w a w' := by
  obtain ⟨r, hj, h⟩ := Option.bind_eq_some_iff.1 h
  obtain ⟨blk, hb, h⟩ := Option.bind_eq_some_iff.1 h
  split at h
  · rename_i hv
    cases h; exact .task ht (.validated hj hb hv)
  · cases h; exact .task ht .invalid

theorem acquireCas_sound {a : Act} {t b : Nat} {value : BitVec 32} {why : AcquireFor} {spurious : Bool}
    (ht : w.tasks[t]? = some (.acquireCas b value why))
    (h : w.acquireCas t b value why spurious = some w') : Step w a w' := by
  obtain ⟨blk, hb, h⟩ := Option.bind_eq_some_iff.1 h
  split at h
  · rename_i hr
    cases h; exact .task ht (.refused hr)
  rename_i hr
  have hr : readerRefused value = false := by simpa using hr
  split at h
  · rename_i hv
    obtain ⟨rfl, -⟩ := hv
    cases why with
    | importing j => cases h; exact .acquireImport ht hb hr
    | reading i s =>
      simp only [World.acquired] at h
      split at h
      · rename_i hs
        cases h; exact .acquireRead ht hb hr hs
      · cases h
    | holding i s =>
      simp only [World.acquired] at h
      split at h
      · rename_i hs
        cases h; exact .acquireHold ht hb hr hs
      · cases h
  · cases h; exact .task ht (.retry hb)

theorem recheck_sound {a : Act} {t b j gen : Nat} (ht : w.tasks[t]? = some (.recheck b j gen))
    (h : w.recheck t b j gen = some w') : Step w a w' := by
  obtain ⟨r, hj, h⟩ := Option.bind_eq_some_iff.1 h
  obtain ⟨blk, hb, h⟩ := Option.bind_eq_some_iff.1 h
  split at h
  · rename_i hu
    cases h; exact .imported ht hj hb hu
  · cases h; exact .task ht .stale

theorem runEffect_sound {a : Act} {t : Nat} {e : Effect} {es : List Effect} {after : After}
    (ht : w.tasks[t]? = some (.teardown (e :: es) after))
    (h : ((w.runEffect e).map fun w' => w'.setTask t (.teardown es after)) = some w') :
    Step w a w' := by
  obtain ⟨w₁, h₁, rfl⟩ := Option.map_eq_some_iff.1 h
  cases e with
  | releaseReader b =>
    obtain ⟨blk, hb, h₁⟩ := Option.bind_eq_some_iff.1 h₁
    cases h₁; exact .release ht hb
  | poolFree b =>
    obtain ⟨blk, hb, h₁⟩ := Option.bind_eq_some_iff.1 h₁
    split at h₁
    · rename_i hp
      cases h₁; exact .free ht hb hp
    · cases h₁
  | custom tag => cases h₁; exact .task ht .custom

theorem finish_sound {a : Act} {t : Nat} {after : After}
    (ht : w.tasks[t]? = some (.teardown [] after)) (h : w.finish t after = some w') :
    Step w a w' := by
  cases after with
  | destroyed => cases h; exact .task ht .destroyed
  | assignBuf dst src =>
    obtain ⟨s, hs, h⟩ := bind_slot h
    split at h
    · rename_i hd
      cases h; exact .finishBuf ht hs hd
    · cases h
  | assignRead dst src =>
    obtain ⟨s, hs, h⟩ := bind_slot h
    split at h
    · rename_i hd
      cases h; exact .finishRead ht hs hd
    · cases h

theorem relayCheck_sound {a : Act} {t i : Nat} {s : BufSlot}
    (ht : w.tasks[t]? = some (.relayCheck i s)) (h : w.relayCheck t i s = some w') : Step w a w' := by
  obtain ⟨b, hc, h⟩ := Option.bind_eq_some_iff.1 h
  obtain ⟨blk, hb, h⟩ := Option.bind_eq_some_iff.1 h
  split at h
  · rename_i hs
    split at h
    · rename_i ha
      cases h; exact .task ht (.relayed hs hc hb ha)
    · rename_i ha
      cases h; exact .task ht (.fellBack hs hc hb (by simpa using ha))
  · cases h

theorem stepTask_sound {t : Nat} {spurious : Bool} (h : w.stepTask t spurious = some w') :
    Step w (.task t spurious) w' := by
  obtain ⟨k, ht, h⟩ := Option.bind_eq_some_iff.1 h
  split at h
  · cases h
  · cases h
  · cases h
  · exact validate_sound ht h
  · exact recheck_sound ht h
  · obtain ⟨blk, hb, h⟩ := Option.bind_eq_some_iff.1 h
    cases h; exact .undo ht hb
  · obtain ⟨blk, hb, h⟩ := Option.bind_eq_some_iff.1 h
    cases h; exact .task ht (.loaded hb)
  · exact acquireCas_sound ht h
  · exact finish_sound ht h
  · exact runEffect_sound ht h
  · obtain ⟨b, hc, h⟩ := Option.bind_eq_some_iff.1 h
    obtain ⟨blk, hb, h⟩ := Option.bind_eq_some_iff.1 h
    split at h
    · rename_i hs
      cases h; exact .storeUid ht hs hc hb
    · cases h
  · exact relayCheck_sound ht h
  · unfold World.readClock at h
    split at h
    · rename_i hs
      cases h; exact .task ht (.clock hs)
    · cases h
  · obtain ⟨b, hc, h⟩ := Option.bind_eq_some_iff.1 h
    obtain ⟨blk, hb, h⟩ := Option.bind_eq_some_iff.1 h
    split at h
    · rename_i hs
      cases h; exact .storeStamp ht hs hc hb
    · cases h

/-- `step` does nothing that `Step` does not list. -/
theorem step_sound {a : Act} (h : step w a = some w') : Step w a w' := by
  cases a with
  | tick us => cases h; exact .tick
  | allocBegin p size =>
    simp only [step, World.allocBegin, Option.ite_none_right_eq_some] at h
    obtain ⟨⟨hp, -⟩, h⟩ := h
    cases h; exact .pool (hp ▸ .begin)
  | allocLoad p b => exact allocLoad_sound h
  | allocTest p => exact allocTest_sound h
  | allocCas p uid => exact allocCas_sound h
  | allocCreate p pid fd id payload uid => exact allocCreate_sound h
  | allocThrow p =>
    simp only [step, World.allocThrow] at h
    split at h
    · rename_i size hpc
      cases h; exact .pool (hpc ▸ .threw)
    · cases h
  | allocStoreUid p =>
    simp only [step, World.allocStoreUid] at h
    split at h
    · rename_i b fresh hpc
      obtain ⟨blk, hb, h⟩ := Option.bind_eq_some_iff.1 h
      cases h; exact .clearUid hpc hb
    · cases h
  | allocStoreStamp p =>
    simp only [step, World.allocStoreStamp] at h
    split at h
    · rename_i b fresh hpc
      obtain ⟨blk, hb, h⟩ := Option.bind_eq_some_iff.1 h
      cases h; exact .clearStamp hpc hb
    · cases h
  | allocDropClaim p =>
    simp only [step, World.allocDropClaim] at h
    split at h
    · rename_i b fresh hpc
      obtain ⟨blk, hb, h⟩ := Option.bind_eq_some_iff.1 h
      cases h; exact .dropClaim hpc hb
    · cases h
  | beginImport j => exact beginImport_sound h
  | beginRead i => exact beginRead_sound h
  | beginHold i => exact beginHold_sound h
  | beginPublish i ipcName => exact beginPublish_sound h
  | beginRelay i => exact beginRelay_sound h
  | newBuf => cases h; exact .newBuf
  | moveBuf i =>
    obtain ⟨s, hs, h⟩ := bind_slot h
    cases h; exact .moveBuf hs
  | assignBuf dst src =>
    obtain ⟨s, hs, h⟩ := bind_slot h
    split at h
    · cases h; exact .tearBuf hs
    · cases h
  | destroyBuf i =>
    obtain ⟨s, hs, h⟩ := bind_slot h
    cases h; exact .tearBuf hs
  | moveRead i =>
    obtain ⟨s, hs, h⟩ := bind_slot h
    cases h; exact .moveRead hs
  | assignRead dst src =>
    obtain ⟨s, hs, h⟩ := bind_slot h
    split at h
    · cases h; exact .tearRead hs
    · cases h
  | destroyRead i =>
    obtain ⟨s, hs, h⟩ := bind_slot h
    cases h; exact .tearRead hs
  | writeByte i k v => exact writeByte_sound h
  | readByte i k => exact readByte_sound h
  | readByteVia i k => exact readByteVia_sound h
  | task t spurious => exact stepTask_sound h

end

end MemfdBuffer.Atomic
