import MemfdBuffer.Import.World
import Mathlib.Data.UInt

/-!
# What one import can come to

`Outcome` lists every way in which a call of `from_descriptor_with_endpoint` ends, with the condition of
each on the descriptor, the cache and the answers from outside, and with all that has changed.
-/

namespace MemfdBuffer.Import

namespace Message

def key (d : Message) : CacheKey :=
  { pid := d.sharedBufferPid, blockId := d.sharedBufferBlockId, ipcName := d.sharedBufferSocketPath }

/-- The fields as numbers. -/
def descriptor (d : Message) : SharedBufferDescriptor where
  size := d.size.toNat
  elementTypeName := d.elementTypeName
  sharedBufferPid := d.sharedBufferPid.toInt
  sharedBufferBlockId := d.sharedBufferBlockId
  sharedBufferBlockSize := d.sharedBufferBlockSize.toNat
  sharedBufferSocketPath := d.sharedBufferSocketPath
  ipcUid := d.ipcUid

end Message

/-- The header that `validate_mapping` finds is the one the descriptor tells of. -/
structure HeaderMatches (e : Env) (d : Message) : Prop where
  magic : (e.seen .magic).magic = kSharedBufferControlMagic
  abiVersion : (e.seen .abiVersion).abiVersion = kSharedBufferControlAbiVersion
  payloadSize : (e.seen .payloadSize).payloadSize = d.size.toNat
  ipcUid : (e.seen .ipcUid).ipcUid = d.ipcUid

/-- What `validate_mapping` finds of a block, under a descriptor that has passed its own checks. -/
structure Validated (e : Env) (d : Message) (block : SharedBufferImportedBlock) : Prop where
  mapped : block.mapping ≠ none
  size : block.mappedSize = d.sharedBufferBlockSize
  header : HeaderMatches e d

/-- What `validate_mapping` asks of the descriptor and the header. -/
structure Checks (e : Env) (d : Message) : Prop where
  offset : payloadOffset ≤ d.sharedBufferBlockSize
  room : d.size ≤ d.sharedBufferBlockSize - payloadOffset
  uid : d.ipcUid ≠ 0
  header : HeaderMatches e d

/-- What it takes to get a block from the cache. -/
structure Revalidates (e : Env) (d : Message) (block : SharedBufferImportedBlock) : Prop where
  path : d.sharedBufferSocketPath ≠ ""
  key : e.alloc .key = true
  mapped : block.mapping ≠ none
  size : block.mappedSize = d.sharedBufferBlockSize
  checks : Checks e d

/-- A received object of the descriptor's size gets mapped. -/
structure Receives (e : Env) (d : Message) : Prop where
  fd : ∃ fd, receiveFdFromSocket e d.sharedBufferSocketPath = .ok fd
  stat : ∃ size, e.fstat = some size ∧ 0 ≤ size ∧ size.toUInt64 = d.sharedBufferBlockSize
  mmap : e.mmap = .ok ()

/-- The call maps a region of its own. -/
structure Opens (e : Env) (w : World) (d : Message) : Prop where
  key : e.alloc .key = true
  uncached : w.cache d.key = none
  receives : Receives e d

/-- The cached block serves the descriptor. -/
structure Hits (e : Env) (w : World) (d : Message) (block : SharedBufferImportedBlock) : Prop where
  key : e.alloc .key = true
  cached : w.cache d.key = some block
  valid : Validated e d block

/-- Nothing that outlives the call differs. -/
structure Quiet (w w' : World) : Prop where
  cache : w'.cache = w.cache
  mmaps : w'.mmaps = w.mmaps
  unmapped : w'.unmapped = w.unmapped
  touches : w'.touches = w.touches

/-- No subtraction has wrapped. -/
def NoWrap (w : World) : Prop := ∀ p ∈ w.subtractions, p.2 ≤ p.1

/-- The block that `import_block` makes of a region it has mapped. -/
structure Fresh (w : World) (d : Message) (block : SharedBufferImportedBlock) : Prop where
  mapping : block.mapping = some w.mmaps.length
  size : block.mappedSize = d.sharedBufferBlockSize

/-- What `import_platform_mapping` comes to. -/
inductive MapOutcome (e : Env) (w : World) (d : Message) :
    World → Except Failure SharedBufferPlatformMapping → Prop
  | refused {w' : World} {x : Failure} : ¬ Receives e d → Quiet w w' → MapOutcome e w d w' (.error x)
  | lost {w' : World} {x : Failure} : Receives e d → e.alloc .name = false → w'.cache = w.cache →
      w'.mmaps = w.mmaps ++ [d.sharedBufferBlockSize] → w'.unmapped = w.unmapped → w'.touches = w.touches →
      MapOutcome e w d w' (.error x)
  | mapped {w' : World} {mapping : SharedBufferPlatformMapping} : Receives e d → e.alloc .name = true →
      mapping.mapping = some w.mmaps.length → mapping.mappedSize = d.sharedBufferBlockSize → w'.cache = w.cache →
      w'.mmaps = w.mmaps ++ [d.sharedBufferBlockSize] → w'.unmapped = w.unmapped → w'.touches = w.touches →
      MapOutcome e w d w' (.ok mapping)

/-- What follows a failed look-up. -/
inductive UncachedOutcome (e : Env) (w : World) (d : Message) :
    World → Except Failure SharedBufferImportedBlock → Prop
  | refused {w' : World} {x : Failure} : ¬ Receives e d → Quiet w w' → UncachedOutcome e w d w' (.error x)
  | lost {w' : World} {x : Failure} : Receives e d → e.alloc .name = false → w'.cache = w.cache →
      w'.mmaps = w.mmaps ++ [d.sharedBufferBlockSize] → w'.unmapped = w.unmapped → w'.touches = w.touches →
      UncachedOutcome e w d w' (.error x)
  | dropped {w' : World} {x : Failure} : Receives e d → e.alloc .name = true →
      ¬ (e.alloc .imported = true ∧ e.alloc .node = true ∧ Checks e d) → w'.cache = w.cache →
      w'.mmaps = w.mmaps ++ [d.sharedBufferBlockSize] →
      (0 < d.sharedBufferBlockSize → w'.unmapped = w.unmapped ++ [w.mmaps.length]) →
      w'.touches = w.touches → UncachedOutcome e w d w' (.error x)
  | cached {w' : World} {block : SharedBufferImportedBlock} : Receives e d → e.alloc .name = true →
      e.alloc .imported = true → e.alloc .node = true → Checks e d → Fresh w d block →
      w'.cache = Function.update w.cache d.key (some block) →
      w'.mmaps = w.mmaps ++ [d.sharedBufferBlockSize] → w'.unmapped = w.unmapped → w'.touches = w.touches →
      UncachedOutcome e w d w' (.ok block)

/-- What `import_block` comes to under any descriptor: it checks less of one than its caller does. -/
inductive BlockOutcome (e : Env) (w : World) (d : Message) :
    World → Except Failure SharedBufferImportedBlock → Prop
  | refused {x : Failure} :
      ¬ (d.sharedBufferSocketPath ≠ "" ∧ payloadOffset ≤ d.sharedBufferBlockSize ∧ e.alloc .key = true) →
      BlockOutcome e w d w (.error x)
  | rejected {w' : World} {block : SharedBufferImportedBlock} {x : Failure} : w.cache d.key = some block →
      Quiet w w' → ¬ Revalidates e d block → BlockOutcome e w d w' (.error x)
  | found {w' : World} {block : SharedBufferImportedBlock} : w.cache d.key = some block → Quiet w w' →
      Revalidates e d block → BlockOutcome e w d w' (.ok block)
  | uncached {w' : World} {r : Except Failure SharedBufferImportedBlock} : w.cache d.key = none →
      e.alloc .key = true → UncachedOutcome e w d w' r → BlockOutcome e w d w' r

/-- What `import_block` comes to in a call that has checked its descriptor. -/
inductive ImportOutcome (e : Env) (w : World) (d : Message) :
    World → Except Failure SharedBufferImportedBlock → Prop
  | refused {w' : World} {x : Failure} : Quiet w w' → ¬ Opens e w d → (∀ block, ¬ Hits e w d block) →
      ImportOutcome e w d w' (.error x)
  | found {w' : World} {block : SharedBufferImportedBlock} : Quiet w w' → Hits e w d block →
      ImportOutcome e w d w' (.ok block)
  /-- The region stays mapped, and nobody knows it. -/
  | lost {w' : World} {x : Failure} : Opens e w d → e.alloc .name = false → w'.cache = w.cache →
      w'.mmaps = w.mmaps ++ [d.sharedBufferBlockSize] → w'.unmapped = w.unmapped → w'.touches = w.touches →
      ImportOutcome e w d w' (.error x)
  | dropped {w' : World} {x : Failure} : Opens e w d → e.alloc .name = true →
      ¬ (e.alloc .imported = true ∧ e.alloc .node = true ∧ HeaderMatches e d) → w'.cache = w.cache →
      w'.mmaps = w.mmaps ++ [d.sharedBufferBlockSize] → w'.unmapped = w.unmapped ++ [w.mmaps.length] →
      w'.touches = w.touches → ImportOutcome e w d w' (.error x)
  | cached {w' : World} {block : SharedBufferImportedBlock} : Opens e w d → e.alloc .name = true →
      e.alloc .imported = true → e.alloc .node = true → HeaderMatches e d → Fresh w d block →
      w'.cache = Function.update w.cache d.key (some block) →
      w'.mmaps = w.mmaps ++ [d.sharedBufferBlockSize] → w'.unmapped = w.unmapped → w'.touches = w.touches →
      ImportOutcome e w d w' (.ok block)

/-- The call counts itself in at the header it finds. -/
def acquired (e : Env) (m : Nat) : Touch :=
  { m := m, before := e.seen .acquire,
    after := { e.seen .acquire with readerState := (e.seen .acquire).readerState + 1#32 } }

/-- And out again. -/
def released (e : Env) (m : Nat) : Touch :=
  { m := m, before := e.seen .release, after := (e.seen .release).releaseReader }

/-- What changes after `import_block`. -/
structure Touches (w w' : World) (l : List Touch) : Prop where
  cache : w'.cache = w.cache
  mmaps : w'.mmaps = w.mmaps
  unmapped : w'.unmapped = w.unmapped
  touches : w'.touches = w.touches ++ l

/-- The reader count admits one more. -/
def Admits (e : Env) : Prop := readerRefused (e.seen .acquire).readerState = false

inductive Outcome (e : Env) (w : World) (d : Message) : World → Except Failure SharedBufferImpl → Prop
  | malformed {w' : World} {x : Failure} : ¬ Described d.descriptor → Quiet w w' → Outcome e w d w' (.error x)
  | unimported {w' : World} {x : Failure} : Described d.descriptor → ImportOutcome e w d w' (.error x) →
      Outcome e w d w' (.error x)
  | refused {w₁ w' : World} {block : SharedBufferImportedBlock} {x : Failure} : Described d.descriptor →
      ImportOutcome e w d w₁ (.ok block) → ¬ Admits e → Touches w₁ w' [] → Outcome e w d w' (.error x)
  | stale {w₁ w' : World} {block : SharedBufferImportedBlock} {m : Nat} {x : Failure} : Described d.descriptor →
      ImportOutcome e w d w₁ (.ok block) → block.mapping = some m → Admits e → (e.seen .recheck).ipcUid ≠ d.ipcUid →
      Touches w₁ w' [acquired e m, released e m] → Outcome e w d w' (.error x)
  /-- The reader stays counted, and no object owns it. -/
  | lost {w₁ w' : World} {block : SharedBufferImportedBlock} {m : Nat} {x : Failure} : Described d.descriptor →
      ImportOutcome e w d w₁ (.ok block) → block.mapping = some m → Admits e → (e.seen .recheck).ipcUid = d.ipcUid →
      e.alloc .closure = false ∨ e.alloc .path = false → Touches w₁ w' [acquired e m] → Outcome e w d w' (.error x)
  | dropped {w₁ w' : World} {block : SharedBufferImportedBlock} {m : Nat} {x : Failure} : Described d.descriptor →
      ImportOutcome e w d w₁ (.ok block) → block.mapping = some m → Admits e → (e.seen .recheck).ipcUid = d.ipcUid →
      e.alloc .closure = true → e.alloc .path = true → e.alloc .impl = false →
      Touches w₁ w' [acquired e m, released e m] → Outcome e w d w' (.error x)
  | done {w₁ w' : World} {block : SharedBufferImportedBlock} {m : Nat} : Described d.descriptor →
      ImportOutcome e w d w₁ (.ok block) → block.mapping = some m → Admits e → (e.seen .recheck).ipcUid = d.ipcUid →
      e.alloc .closure = true → e.alloc .path = true → e.alloc .impl = true → Touches w₁ w' [acquired e m] →
      Outcome e w d w' (.ok { size := d.size.toNat, sharedBuffer := SharedBuffer.imported m d.descriptor })

namespace Quiet
variable {w w' w'' : World}

theorem refl (w : World) : Quiet w w := ⟨rfl, rfl, rfl, rfl⟩

theorem trans (h : Quiet w w') (h' : Quiet w' w'') : Quiet w w'' :=
  ⟨h'.cache.trans h.cache, h'.mmaps.trans h.mmaps, h'.unmapped.trans h.unmapped, h'.touches.trans h.touches⟩

end Quiet

section
variable {w w₀ : World} {e : Env} {d : Message} {block : SharedBufferImportedBlock} {a b : UInt64}

/-! ### Machine integers -/

theorem room_lt (h : payloadOffset ≤ a) : a - payloadOffset < b ↔ a.toNat - kSharedBufferPayloadOffset < b.toNat := by
  rw [UInt64.lt_iff_toNat_lt, UInt64.toNat_sub_of_le _ _ h, toNat_payloadOffset]

theorem payloadOffset_le (hd : Described d.descriptor) : payloadOffset ≤ d.sharedBufferBlockSize :=
  UInt64.le_iff_toNat_le.2 hd.offset

theorem NoWrap.sub (h : NoWrap w) (hb : b ≤ a) : NoWrap (w.sub a b).1 := by
  intro p hp
  rcases List.mem_append.1 hp with hp | hp
  · exact h p hp
  · rw [List.mem_singleton.1 hp]
    exact hb

theorem Quiet.sub (w : World) (a b : UInt64) : Quiet w (w.sub a b).1 := ⟨rfl, rfl, rfl, rfl⟩

/-! ### The checks -/

theorem checkMessage_quiet : Quiet w (w.checkMessage e d).1 := by
  unfold World.checkMessage
  dsimp only
  split_ifs
  · exact .refl w
  · exact .refl w
  · exact .sub ..
  · exact .sub ..

theorem checkMessage_ok : (w.checkMessage e d).2 = .ok () ↔ Described d.descriptor := by
  have hpid : d.sharedBufferPid ≤ 0 ↔ d.sharedBufferPid.toInt ≤ 0 := Int32.le_iff_toInt_le
  have hoff : d.sharedBufferBlockSize < payloadOffset ↔ d.sharedBufferBlockSize.toNat < kSharedBufferPayloadOffset :=
    UInt64.lt_iff_toNat_lt
  unfold World.checkMessage
  dsimp only [World.sub]
  split_ifs with h1 h2 h3
  · exact ⟨fun h => (by cases h), fun h => absurd h.type h1⟩
  · refine ⟨fun h => (by cases h), fun h => ?_⟩
    rcases h2 with h2 | h2 | h2 | h2
    · exact absurd (hpid.1 h2) (Int.not_le.2 h.pid)
    · exact absurd h2 h.path
    · exact absurd h2 h.uid
    · exact absurd (hoff.1 h2) (Nat.not_lt.2 h.offset)
  · push Not at h2
    refine ⟨fun h => (by cases h), fun h => ?_⟩
    rw [room_lt (UInt64.not_lt.1 h2.2.2.2)] at h3
    exact absurd h3 (Nat.not_lt.2 h.size)
  · push Not at h1 h2
    rw [room_lt (UInt64.not_lt.1 h2.2.2.2)] at h3
    refine ⟨fun _ => ⟨h1, ?_, h2.2.1, h2.2.2.1, ?_, Nat.not_lt.1 h3⟩, fun _ => rfl⟩
    · exact Int.not_le.1 fun hle => h2.1 (hpid.2 hle)
    · exact UInt64.le_iff_toNat_le.1 (UInt64.not_lt.1 h2.2.2.2)

theorem validateMapping_quiet {size payload uid : UInt64} {w' : World} {r : Except Failure Unit}
    (hv : w.validateMapping e block size payload uid = (w', r)) : Quiet w w' := by
  suffices hq : Quiet w (w.validateMapping e block size payload uid).1 by
    rw [hv] at hq
    exact hq
  unfold World.validateMapping
  dsimp only
  split_ifs
  · exact .refl w
  all_goals exact .sub ..

theorem validateMapping_iff {w' : World} {r : Except Failure Unit}
    (hv : w.validateMapping e block d.sharedBufferBlockSize d.size d.ipcUid = (w', r)) :
    r = .ok () ↔ block.mapping ≠ none ∧ block.mappedSize = d.sharedBufferBlockSize ∧ Checks e d := by
  suffices hok : (w.validateMapping e block d.sharedBufferBlockSize d.size d.ipcUid).2 = .ok () ↔
      block.mapping ≠ none ∧ block.mappedSize = d.sharedBufferBlockSize ∧ Checks e d by
    rw [hv] at hok
    exact hok
  unfold World.validateMapping
  dsimp only [World.sub]
  split_ifs with h1 h2 h3 h4 h5 h6
  · refine ⟨fun h => (by cases h), fun ⟨hm, hs, hc⟩ => ?_⟩
    rcases h1 with h1 | h1 | h1
    · exact absurd h1 hm
    · exact absurd hs.symm h1
    · exact absurd h1 (UInt64.not_lt.2 hc.offset)
  · exact ⟨fun h => (by cases h), fun ⟨_, _, hc⟩ => absurd h2 (UInt64.not_lt.2 hc.room)⟩
  · refine ⟨fun h => (by cases h), fun ⟨_, _, hc⟩ => ?_⟩
    rcases h3 with h3 | h3
    · exact absurd hc.header.magic h3
    · exact absurd hc.header.abiVersion h3
  · exact ⟨fun h => (by cases h), fun ⟨_, _, hc⟩ => absurd hc.header.payloadSize h4⟩
  · exact ⟨fun h => (by cases h), fun ⟨_, _, hc⟩ => absurd h5 hc.uid⟩
  · exact ⟨fun h => (by cases h), fun ⟨_, _, hc⟩ => absurd hc.header.ipcUid h6⟩
  · push Not at h1 h3 h4 h6
    exact ⟨fun _ => ⟨h1.1, h1.2.1.symm, ⟨UInt64.not_lt.1 h1.2.2, UInt64.not_lt.1 h2, h5, h3.1, h3.2, h4, h6⟩⟩,
      fun _ => rfl⟩

theorem Checks.of_described (hd : Described d.descriptor) (h : HeaderMatches e d) : Checks e d where
  offset := payloadOffset_le hd
  room := UInt64.not_lt.1 fun hlt => absurd ((room_lt (payloadOffset_le hd)).1 hlt) (Nat.not_lt.2 hd.size)
  uid := hd.uid
  header := h

/-! ### The mapping -/

theorem importPlatformMapping_outcome {w' : World} {r : Except Failure SharedBufferPlatformMapping}
    (h : w.importPlatformMapping e d.sharedBufferSocketPath d.sharedBufferBlockSize = (w', r)) :
    MapOutcome e w d w' r := by
  unfold World.importPlatformMapping at h
  split at h
  · rename_i x hfd
    cases h
    refine .refused (fun h => ?_) (.refl w)
    obtain ⟨fd, hok⟩ := h.fd
    rw [hok] at hfd
    cases hfd
  · rename_i fd hfd
    dsimp only at h
    split at h
    · rename_i hstat
      cases h
      refine .refused (fun h => ?_) ⟨rfl, rfl, rfl, rfl⟩
      obtain ⟨size, hsize, hpos, heq⟩ := h.stat
      rw [hsize, Option.all_some, decide_eq_true_eq] at hstat
      rcases hstat with hneg | hne
      · exact Int64.not_lt.2 hpos hneg
      · exact hne heq
    · rename_i hstat
      split at h
      · rename_i message hmap
        have hno : ¬ Receives e d := fun h => by
          rw [h.mmap] at hmap
          cases hmap
        split at h
        · cases h
          exact .refused hno ⟨rfl, rfl, rfl, rfl⟩
        · cases h
          exact .refused hno ⟨rfl, rfl, rfl, rfl⟩
      · rename_i hmap
        have hrec : Receives e d := by
          refine ⟨⟨fd, hfd⟩, ?_, hmap⟩
          cases hs : e.fstat with
          | none => exact absurd (by rw [hs]; rfl) hstat
          | some size =>
            rw [hs, Option.all_some, decide_eq_true_eq] at hstat
            push Not at hstat
            exact ⟨size, rfl, Int64.not_lt.1 hstat.1, hstat.2⟩
        split at h
        · rename_i hname
          cases h
          exact .mapped hrec hname rfl rfl rfl rfl rfl rfl
        · rename_i hname
          cases h
          exact .lost hrec (Bool.eq_false_iff.2 hname) rfl rfl rfl rfl

section
variable {handle : Int} {mapping : Option Nat} {size : UInt64}

theorem destroyPlatformMapping_cache : (w.destroyPlatformMapping handle mapping size).cache = w.cache := by
  unfold World.destroyPlatformMapping
  cases mapping <;> dsimp only <;> split_ifs <;> rfl

theorem destroyPlatformMapping_mmaps : (w.destroyPlatformMapping handle mapping size).mmaps = w.mmaps := by
  unfold World.destroyPlatformMapping
  cases mapping <;> dsimp only <;> split_ifs <;> rfl

theorem destroyPlatformMapping_touches : (w.destroyPlatformMapping handle mapping size).touches = w.touches := by
  unfold World.destroyPlatformMapping
  cases mapping <;> dsimp only <;> split_ifs <;> rfl

theorem destroyPlatformMapping_unmapped {m : Nat} (h : 0 < size) :
    (w.destroyPlatformMapping handle (some m) size).unmapped = w.unmapped ++ [m] := by
  unfold World.destroyPlatformMapping
  dsimp only
  rw [if_pos h]
  split_ifs <;> rfl

end

theorem blockSize_pos (hd : Described d.descriptor) : 0 < d.sharedBufferBlockSize := by
  rw [UInt64.lt_iff_toNat_lt]
  exact Nat.lt_of_lt_of_le (by decide) hd.offset

/-- Dropping the region that the call has just mapped. -/
theorem UncachedOutcome.destroy {w₁ : World} {handle : Int} {x : Failure} (hrec : Receives e d)
    (hname : e.alloc .name = true) (hno : ¬ (e.alloc .imported = true ∧ e.alloc .node = true ∧ Checks e d))
    (hc : w₁.cache = w.cache) (hm : w₁.mmaps = w.mmaps ++ [d.sharedBufferBlockSize]) (hu : w₁.unmapped = w.unmapped)
    (ht : w₁.touches = w.touches) :
    UncachedOutcome e w d (w₁.destroyPlatformMapping handle (some w.mmaps.length) d.sharedBufferBlockSize)
      (.error x) := by
  refine .dropped hrec hname hno ?_ ?_ (fun hpos => ?_) ?_
  · rw [destroyPlatformMapping_cache, hc]
  · rw [destroyPlatformMapping_mmaps, hm]
  · rw [destroyPlatformMapping_unmapped hpos, hu]
  · rw [destroyPlatformMapping_touches, ht]

theorem importUncached_outcome {w' : World} {r : Except Failure SharedBufferImportedBlock}
    (h : w.importUncached e d.key d.sharedBufferBlockSize d.size d.ipcUid = (w', r)) : UncachedOutcome e w d w' r := by
  unfold World.importUncached at h
  split at h
  · rename_i w₁ x hmap
    cases h
    rcases importPlatformMapping_outcome hmap with ⟨hno, hq⟩ | ⟨hrec, hname, h1, h2, h3, h4⟩
    · exact .refused hno hq
    · exact .lost hrec hname h1 h2 h3 h4
  · rename_i w₁ mapping hmap
    rcases importPlatformMapping_outcome hmap with _ | _ | ⟨hrec, hname, hm, hs, h1, h2, h3, h4⟩
    split at h
    · rename_i halloc
      cases h
      rw [hm, hs]
      exact .destroy hrec hname (fun hall => absurd hall.1 (by rw [halloc]; decide)) h1 h2 h3 h4
    · rename_i halloc
      rw [Bool.not_eq_false] at halloc
      -- the header is looked at before the block gets into the cache
      dsimp only at h
      generalize himp : SharedBufferImportedBlock.mk mapping.nativeHandle mapping.mapping mapping.mappedSize
        d.key.ipcName = imported at h
      have hmi : imported.mapping = some w.mmaps.length := by rw [← himp, ← hm]
      have hsi : imported.mappedSize = d.sharedBufferBlockSize := by rw [← himp, ← hs]
      split at h
      · rename_i w₂ x hval
        cases h
        have hv := validateMapping_iff hval
        have hq := validateMapping_quiet hval
        unfold World.destroyImportedBlock
        rw [hmi, hsi]
        refine .destroy hrec hname (fun hall => ?_) (hq.cache.trans h1) (hq.mmaps.trans h2) (hq.unmapped.trans h3)
          (hq.touches.trans h4)
        cases hv.2 ⟨by rw [hmi]; exact Option.some_ne_none _, hsi, hall.2.2⟩
      · rename_i w₂ hval
        have hv := validateMapping_iff hval
        have hq := validateMapping_quiet hval
        split at h
        · rename_i hnode
          cases h
          unfold World.destroyImportedBlock
          rw [hmi, hsi]
          exact .destroy hrec hname (fun hall => absurd hall.2.1 (by rw [hnode]; decide)) (hq.cache.trans h1)
            (hq.mmaps.trans h2) (hq.unmapped.trans h3) (hq.touches.trans h4)
        · rename_i hnode
          rw [Bool.not_eq_false] at hnode
          cases h
          refine .cached hrec hname halloc hnode (hv.1 rfl).2.2 ⟨hmi, hsi⟩ ?_ (hq.mmaps.trans h2)
            (hq.unmapped.trans h3) (hq.touches.trans h4)
          rw [← h1, ← hq.cache]

/-- The last of the checks in front of the cache never fails. -/
theorem size_le_sizeMax (n : UInt64) : ¬ sizeMax < n.toNat := by
  have := n.toNat_lt
  simp only [sizeMax]
  omega

theorem importBlock_cases {w' : World} {r : Except Failure SharedBufferImportedBlock}
    (h : w.importBlock e d.sharedBufferSocketPath d.sharedBufferPid d.sharedBufferBlockId
      d.sharedBufferBlockSize d.size d.ipcUid = (w', r)) : BlockOutcome e w d w' r := by
  unfold World.importBlock at h
  split at h
  · rename_i hmeta
    cases h
    refine .refused fun hpass => ?_
    rcases hmeta with hp | ho | hm
    · exact hpass.1 hp
    · exact UInt64.not_lt.2 hpass.2.1 ho
    · exact size_le_sizeMax _ hm
  · rename_i hmeta
    push Not at hmeta
    split at h
    · rename_i hkey
      cases h
      exact .refused fun hpass => absurd hpass.2.2 (by rw [hkey]; decide)
    · rename_i hkey
      rw [Bool.not_eq_false] at hkey
      dsimp only at h
      split at h
      · rename_i existing hcached
        change w.cache d.key = some existing at hcached
        split at h
        · rename_i w₁ x hval
          cases h
          have hv := validateMapping_iff hval
          refine .rejected hcached (validateMapping_quiet hval) fun hr => ?_
          cases hv.2 ⟨hr.mapped, hr.size, hr.checks⟩
        · rename_i w₁ hval
          cases h
          obtain ⟨hm, hs, hchecks⟩ := (validateMapping_iff hval).1 rfl
          exact .found hcached (validateMapping_quiet hval) ⟨hmeta.1, hkey, hm, hs, hchecks⟩
      · rename_i huncached
        exact .uncached huncached hkey (importUncached_outcome h)

theorem Hits.revalidates (hd : Described d.descriptor) (h : Hits e w d block) : Revalidates e d block where
  path := hd.path
  key := h.key
  mapped := h.valid.mapped
  size := h.valid.size
  checks := .of_described hd h.valid.header

theorem UncachedOutcome.described {w' : World} {r : Except Failure SharedBufferImportedBlock}
    (hd : Described d.descriptor) (hkey : e.alloc .key = true) (hc : w.cache d.key = none)
    (h : UncachedOutcome e w d w' r) : ImportOutcome e w d w' r := by
  cases h with
  | refused hno hq =>
    refine .refused hq (fun ho => hno ho.receives) fun block hh => ?_
    rw [hh.cached] at hc
    cases hc
  | lost hrec hname h1 h2 h3 h4 => exact .lost ⟨hkey, hc, hrec⟩ hname h1 h2 h3 h4
  | dropped hrec hname hno h1 h2 h3 h4 =>
    refine .dropped ⟨hkey, hc, hrec⟩ hname (fun hall => ?_) h1 h2 (h3 (blockSize_pos hd)) h4
    exact hno ⟨hall.1, hall.2.1, .of_described hd hall.2.2⟩
  | cached hrec hname himp hnode hchecks hf h1 h2 h3 h4 =>
    exact .cached ⟨hkey, hc, hrec⟩ hname himp hnode hchecks.header hf h1 h2 h3 h4

theorem importBlock_outcome {w' : World} {r : Except Failure SharedBufferImportedBlock} (hd : Described d.descriptor)
    (h : w.importBlock e d.sharedBufferSocketPath d.sharedBufferPid d.sharedBufferBlockId
      d.sharedBufferBlockSize d.size d.ipcUid = (w', r)) : ImportOutcome e w d w' r := by
  cases importBlock_cases h with
  | refused hno =>
    refine .refused (.refl w) (fun ho => ?_) fun block hh => ?_
    · exact hno ⟨hd.path, payloadOffset_le hd, ho.key⟩
    · exact hno ⟨hd.path, payloadOffset_le hd, hh.key⟩
  | rejected hc hq hno =>
    refine .refused hq (fun ho => ?_) fun block hh => ?_
    · rw [ho.uncached] at hc
      cases hc
    · rw [hh.cached] at hc
      cases hc
      exact hno (hh.revalidates hd)
  | found hc hq hr => exact .found hq ⟨hr.key, hc, hr.mapped, hr.size, hr.checks.header⟩
  | uncached hc hkey ho => exact ho.described hd hkey hc

/-! ### The whole call -/

namespace Opens

theorem of_quiet (hq : Quiet w₀ w) (h : Opens e w d) : Opens e w₀ d :=
  ⟨h.key, by rw [← hq.cache]; exact h.uncached, h.receives⟩

end Opens

theorem Hits.of_quiet (hq : Quiet w₀ w) (h : Hits e w d block) : Hits e w₀ d block :=
  ⟨h.key, by rw [← hq.cache]; exact h.cached, h.valid⟩

theorem Quiet.symm (h : Quiet w₀ w) : Quiet w w₀ :=
  ⟨h.cache.symm, h.mmaps.symm, h.unmapped.symm, h.touches.symm⟩

theorem ImportOutcome.of_quiet {w' : World} {r : Except Failure SharedBufferImportedBlock} (hq : Quiet w₀ w)
    (h : ImportOutcome e w d w' r) : ImportOutcome e w₀ d w' r := by
  cases h with
  | refused hq' hno hhit =>
    exact .refused (hq.trans hq') (fun ho => hno (ho.of_quiet hq.symm)) fun b hb => hhit b (hb.of_quiet hq.symm)
  | found hq' hhit => exact .found (hq.trans hq') (hhit.of_quiet hq)
  | lost ho hname h1 h2 h3 h4 =>
    refine .lost (ho.of_quiet hq) hname (h1.trans hq.cache) ?_ (h3.trans hq.unmapped) (h4.trans hq.touches)
    rw [h2, hq.mmaps]
  | dropped ho hname hno h1 h2 h3 h4 =>
    refine .dropped (ho.of_quiet hq) hname hno (h1.trans hq.cache) ?_ ?_ (h4.trans hq.touches)
    · rw [h2, hq.mmaps]
    · rw [h3, hq.unmapped, hq.mmaps]
  | cached ho hname himp hnode hh hf h1 h2 h3 h4 =>
    refine .cached (ho.of_quiet hq) hname himp hnode hh ⟨?_, hf.size⟩ ?_ ?_ (h3.trans hq.unmapped) (h4.trans hq.touches)
    · rw [hf.mapping, hq.mmaps]
    · rw [h1, hq.cache]
    · rw [h2, hq.mmaps]

/-- What `import_block` returns is mapped. -/
theorem ImportOutcome.mapped {w' : World} (h : ImportOutcome e w d w' (.ok block)) : ∃ m, block.mapping = some m := by
  cases h with
  | found _ hhit => exact Option.ne_none_iff_exists'.1 hhit.valid.mapped
  | cached _ _ _ _ _ hf _ _ _ _ => exact ⟨_, hf.mapping⟩

theorem buildBuffer_outcome {w₁ w' : World} {m : Nat} {r : Except Failure SharedBufferImpl}
    (hd : Described d.descriptor)
    (hi : ImportOutcome e w d w₁ (.ok block)) (hm : block.mapping = some m) (ha : Admits e)
    (hr : (e.seen .recheck).ipcUid = d.ipcUid) (ht : Touches w₁ w₀ [acquired e m])
    (h : w₀.buildBuffer e block d = (w', r)) : Outcome e w d w' r := by
  unfold World.buildBuffer at h
  split at h
  · rename_i halloc
    cases h
    exact .lost hd hi hm ha hr halloc ht
  · rename_i halloc
    push Not at halloc
    simp only [Bool.not_eq_false] at halloc
    have hbuf : SharedBuffer.construct block.payload d.size.toNat
        ((block.mapping.map Deleter.releaseReader).getD .noop) block.control block.mapping
        d.sharedBufferBlockId d.sharedBufferBlockSize.toNat false d.sharedBufferPid.toInt d.sharedBufferSocketPath
        d.ipcUid = .ok (SharedBuffer.imported m d.descriptor) := by
      rw [SharedBufferImportedBlock.payload, SharedBufferImportedBlock.control, hm]
      exact SharedBuffer.construct_imported m d.descriptor
    rw [hbuf] at h
    dsimp only at h
    split at h
    · rename_i himpl
      cases h
      refine .dropped hd hi hm ha hr halloc.1 halloc.2 himpl ⟨ht.cache, ht.mmaps, ht.unmapped, ?_⟩
      show w₀.touches ++ [released e m] = _
      rw [ht.touches, List.append_assoc]
      rfl
    · rename_i himpl
      rw [Bool.not_eq_false] at himpl
      cases h
      exact .done hd hi hm ha hr halloc.1 halloc.2 himpl ht

theorem fromDescriptor_outcome {w' : World} {r : Except Failure SharedBufferImpl}
    (h : w.fromDescriptorWithEndpoint e (some d) = (w', r)) : Outcome e w d w' r := by
  rw [World.fromDescriptorWithEndpoint] at h
  have hq := checkMessage_quiet (w := w) (e := e) (d := d)
  have hok := checkMessage_ok (w := w) (e := e) (d := d)
  split at h
  · rename_i w₁ x hcheck
    cases h
    rw [hcheck] at hq hok
    exact .malformed (fun hd => by cases hok.2 hd) hq
  · rename_i w₁ hcheck
    rw [hcheck] at hq hok
    have hd := hok.1 rfl
    split at h
    · rename_i w₂ x himp
      cases h
      exact .unimported hd ((importBlock_outcome hd himp).of_quiet hq)
    · rename_i w₂ block himp
      have hi := (importBlock_outcome hd himp).of_quiet hq
      obtain ⟨m, hm⟩ := hi.mapped
      unfold World.acquireReader SharedBufferImportedBlock.control SharedBufferControlHeader.tryAcquireReader at h
      rw [hm] at h
      dsimp only at h
      by_cases ha : readerRefused (e.seen .acquire).readerState = true
      · rw [if_pos ha] at h
        cases h
        refine .refused hd hi (fun hadm => ?_) ⟨rfl, rfl, rfl, (List.append_nil _).symm⟩
        rw [Admits, ha] at hadm
        cases hadm
      · rw [if_neg ha] at h
        have hadm : Admits e := Bool.eq_false_iff.2 ha
        dsimp only at h
        split at h
        · rename_i hr
          cases h
          unfold World.releaseReader SharedBufferImportedBlock.control
          rw [hm]
          refine .stale hd hi hm hadm hr ⟨rfl, rfl, rfl, ?_⟩
          exact List.append_assoc _ _ _
        · rename_i hr
          rw [not_not] at hr
          refine buildBuffer_outcome hd hi hm hadm hr ?_ h
          exact ⟨rfl, rfl, rfl, rfl⟩

/-! ### Subtractions -/

theorem NoWrap.congr (h : NoWrap w₀) (hs : w.subtractions = w₀.subtractions) : NoWrap w := by
  unfold NoWrap
  rw [hs]
  exact h

end

end MemfdBuffer.Import
