import MemfdBuffer.Windows.Mappings
import MemfdBuffer.Lib.Machine

/-!
# Processes of a login session

Every process has pools and a cache, may create blocks and import those of any other, and may end at any time without
a destructor. A process ID is free again once its process has ended; names of sections follow from the ID, a random
nonce and the block's ID, and nothing keeps them apart but the sections that exist.
-/

namespace MemfdBuffer.Windows

open Import (Access CacheKey Checks Failure Message SharedBufferImportedBlock SharedBufferPlatformMapping payloadOffset)
open NamedObjects (Keeps Owned)

structure Process where
  pid : UInt32
  pools : List Pool := []
  cache : Cache := []
  alive : Bool := true

structure System where
  sections : Sections := {}
  /-- All processes there have been. -/
  processes : List Process := []

inductive Event
  | spawn (pid : UInt32)
  /-- A process ends; handles and views go with it. -/
  | exit (p : Nat)
  | createPool (p : Nat)
  /-- `~SharedBufferMemoryPool`. -/
  | destroyPool (p k : Nat)
  | createBlock (p k payloadSize : Nat) (nonce : UInt64) (e : CreateEnv)
  | importBlock (p : Nat) (d : Message) (e : ImportEnv)

/-- Where a process keeps a mapping. -/
inductive Slot
  | block (p k b : Nat)
  | entry (p : Nat) (key : CacheKey)
deriving DecidableEq

def Slot.process : Slot → Nat
  | block p _ _ => p
  | entry p _ => p

def Block.platform (block : Block) : SharedBufferPlatformMapping where
  nativeHandle := block.nativeHandle
  mapping := block.mapping
  mappedSize := UInt64.ofNat block.mappedSize
  ipcName := block.socketPath

def entryPlatform (key : CacheKey) (block : SharedBufferImportedBlock) : SharedBufferPlatformMapping where
  nativeHandle := block.nativeHandle
  mapping := block.mapping
  mappedSize := block.mappedSize
  ipcName := key.ipcName

def Process.livePool (process : Process) (k : Nat) : Option Pool := process.pools[k]?.filter (·.alive)

def Process.setPool (process : Process) (k : Nat) (pool : Pool) : Process :=
  { process with pools := process.pools.set k pool }

theorem Process.alive_setPool {process : Process} {k : Nat} {pool : Pool} :
    (process.setPool k pool).alive = process.alive := rfl

namespace System
variable (s : System)

/-- The process, unless it has ended. -/
def running (p : Nat) : Option Process := s.processes[p]?.filter (·.alive)

def set (p : Nat) (t : Sections) (process : Process) : System :=
  { sections := t, processes := s.processes.set p process }

def step : Event → Option System
  | .spawn pid =>
    if s.processes.any fun process => process.alive && process.pid == pid then none
    else some { s with processes := s.processes ++ [{ pid := pid }] }
  | .exit p => (s.running p).map fun process => s.set p (s.sections.closeAll p) { process with alive := false }
  | .createPool p =>
    (s.running p).map fun process => s.set p s.sections { process with pools := process.pools ++ [{}] }
  | .destroyPool p k =>
    (s.running p).bind fun process => (process.livePool k).map fun pool =>
      match Windows.destroyPool s.sections pool with
      | (t, pool) => s.set p t (process.setPool k pool)
  | .createBlock p k payloadSize nonce e =>
    (s.running p).bind fun process => (process.livePool k).map fun pool =>
      match Windows.createBlock s.sections pool p process.pid payloadSize nonce e with
      | (t, pool, _) => s.set p t (process.setPool k pool)
  | .importBlock p d e =>
    (s.running p).map fun process =>
      match Windows.importBlock s.sections process.cache p d e with
      | (t, cache, _) => s.set p t { process with cache := cache }

/-- A block of a pool that is not destroyed, in a process that runs. -/
def blockAt (p k b : Nat) : Option Block :=
  (s.running p).bind fun process => (process.livePool k).bind fun pool => pool.allBlocks[b]?

def entryAt (p : Nat) (key : CacheKey) : Option SharedBufferImportedBlock :=
  (s.running p).bind fun process => process.cache.lookup key

/-- The mapping in a slot, with the name it stands under. -/
def mappingAt : Slot → Option SharedBufferPlatformMapping
  | .block p k b => (s.blockAt p k b).map Block.platform
  | .entry p key => (s.entryAt p key).map (entryPlatform key)

def slot (x : Slot) : List Nat := (s.mappingAt x).elim [] fun m => held m.nativeHandle m.mapping

end System

def Init (s : System) : Prop := s = {}

abbrev Reachable (s : System) : Prop := Machine.Reach System.step Init s

/-- The descriptor of an import tells the size of the section that its name stands for. -/
def Truthful (s : System) : Event → Prop
  | .importBlock _ d _ => ∀ o, s.sections.find (widenAscii d.sharedBufferSocketPath) = some o →
    (s.sections.objects[o]?).map Prod.snd = some d.sharedBufferBlockSize
  | _ => True

structure Inv (s : System) : Prop where
  wf : s.sections.Wf
  owned : s.sections.Owned Slot.process s.slot
  mapped {x : Slot} {m : SharedBufferPlatformMapping} : s.mappingAt x = some m →
    ∃ o, Mapping s.sections x.process o m.nativeHandle m.mapping ∧ s.sections.name o = some (widenAscii m.ipcName)
  distinct {p k b q j c : Nat} {m n : SharedBufferPlatformMapping} : s.mappingAt (.block p k b) = some m →
    s.mappingAt (.block q j c) = some n → sectionOf s.sections m.mapping = sectionOf s.sections n.mapping →
    p = q ∧ k = j ∧ b = c

/-- What is mapped has the size of its section. -/
def Sized (s : System) : Prop := ∀ x m o, s.mappingAt x = some m → sectionOf s.sections m.mapping = some o →
  (s.sections.objects[o]?).map Prod.snd = some m.mappedSize

/-- The mappings in `D` are given up, all others stay. -/
structure Dropped (s s' : System) (D : Slot → Prop) : Prop where
  wf : s'.sections.Wf
  objects : s.sections.objects <+: s'.sections.objects
  closed {x : Slot} {r : Nat} : D x → r ∈ s.slot x → s'.sections.ref r = none
  kept {r : Nat} : (∀ x, D x → r ∉ s.slot x) → s'.sections.ref r = s.sections.ref r
  gone {x : Slot} : D x → s'.mappingAt x = none
  other {x : Slot} : ¬ D x → s'.mappingAt x = s.mappingAt x

/-- A mapping gets into the empty slot `x`. -/
structure Added (s : System) (event : Event) (s' : System) (x : Slot) (m : SharedBufferPlatformMapping) (o h v : Nat) :
    Prop where
  opened : Opened s.sections s'.sections x.process o h v
  empty : s.mappingAt x = none
  mapping : s'.mappingAt x = some m
  handle : m.nativeHandle = h
  view : m.mapping = some v
  name : s'.sections.name o = some (widenAscii m.ipcName)
  /-- The section of a new block is new. -/
  fresh {p k b : Nat} : x = .block p k b → s.sections.objects.length ≤ o
  size : Truthful s event → (s'.sections.objects[o]?).map Prod.snd = some m.mappedSize
  other {y : Slot} : y ≠ x → s'.mappingAt y = s.mappingAt y

/-- What an event does to the mappings. -/
inductive Moves (s : System) (event : Event) (s' : System) : Prop
  | dropped (D : Slot → Prop) : Dropped s s' D → Moves s event s'
  | added {x : Slot} {m : SharedBufferPlatformMapping} {o h v : Nat} : Added s event s' x m o h v → Moves s event s'

namespace System
variable {s s' : System} {p k b q j c : Nat} {process process' : Process} {pool : Pool} {block : Block}
  {t t' : Sections}
  {key : CacheKey} {x y : Slot} {m : SharedBufferPlatformMapping}

/-! ### What an event changes -/

theorem running_get (h : s.running p = some process) : s.processes[p]? = some process :=
  (Option.filter_eq_some_iff.1 h).1

theorem running_alive (h : s.running p = some process) : process.alive = true := (Option.filter_eq_some_iff.1 h).2

theorem running_set (h : s.running p = some process) : (s.set p t process').running q =
    if q = p then (if process'.alive then some process' else none) else s.running q := by
  unfold running set
  dsimp only
  by_cases hq : q = p
  · rw [hq, if_pos rfl, List.getElem?_set_self (List.getElem?_eq_some_iff.1 (running_get h)).1]
    exact Option.filter_some
  · rw [if_neg hq, List.getElem?_set_ne (Ne.symm hq)]

theorem blockAt_of_running (h : s.running p = some process) :
    s.blockAt p k b = (process.livePool k).bind fun pool => pool.allBlocks[b]? := by
  rw [blockAt, h, Option.bind_some]

theorem entryAt_of_running (h : s.running p = some process) : s.entryAt p key = process.cache.lookup key := by
  rw [entryAt, h, Option.bind_some]

theorem mappingAt_congr (h : s'.running x.process = s.running x.process) : s'.mappingAt x = s.mappingAt x := by
  cases x with
  | block p k b =>
    have h : s'.running p = s.running p := h
    rw [mappingAt, mappingAt, blockAt, blockAt, h]
  | entry p key =>
    have h : s'.running p = s.running p := h
    rw [mappingAt, mappingAt, entryAt, entryAt, h]

theorem slot_congr (h : s'.mappingAt x = s.mappingAt x) : s'.slot x = s.slot x := by rw [slot, slot, h]

theorem slot_of_mappingAt (h : s.mappingAt x = some m) : s.slot x = held m.nativeHandle m.mapping := by
  rw [slot, h]
  rfl

theorem slot_nil (h : s.mappingAt x = none) : s.slot x = [] := by rw [slot, h]; rfl

end System

/-! ### Three kinds of steps -/

section
variable {s s' : System} {t t' : Sections} {p o h v : Nat} {n : Int} {mm : Option Nat} {x : Slot}
  {m : SharedBufferPlatformMapping}

theorem Mapping.held (hm : Mapping t p o n mm) : ∃ h v, held n mm = [v, h] ∧ Holds t p o h v := by
  obtain ⟨h, v, rfl, rfl, hh⟩ := hm
  exact ⟨h, v, held_eq, hh⟩

theorem Mapping.sectionOf (hm : Mapping t p o n mm) : Windows.sectionOf t mm = some o := by
  obtain ⟨h, v, -, rfl, hh⟩ := hm
  exact sectionOf_eq hh.view

theorem Mapping.keep (hm : Mapping t p o n mm) (hr : ∀ r ∈ Windows.held n mm, t'.ref r = t.ref r) :
    Mapping t' p o n mm := by
  obtain ⟨h, v, rfl, rfl, hh⟩ := hm
  rw [held_eq] at hr
  exact ⟨h, v, rfl, rfl, hh.ne, by rw [hr h (by simp), hh.handle], by rw [hr v (by simp), hh.view]⟩

theorem Mapping.lt (hw : t.Wf) (hm : Mapping t p o n mm) : o < t.objects.length := by
  obtain ⟨h, v, -, -, hh⟩ := hm
  exact hw.bound hh.view

/-- No mapping comes or goes. -/
theorem Dropped.of_same (hk : Keeps s.sections s'.sections []) (hsame : ∀ x, s'.mappingAt x = s.mappingAt x) :
    Dropped s s' fun _ => False :=
  ⟨hk.wf, hk.objects, fun h => h.elim, fun _ => hk.refs List.not_mem_nil, fun h => h.elim, fun {x} _ => hsame x⟩

theorem Dropped.mapping {D : Slot → Prop} (hi : Inv s) (hd : Dropped s s' D) (hm : s'.mappingAt x = some m) :
    s.mappingAt x = some m ∧ ∃ o, Mapping s.sections x.process o m.nativeHandle m.mapping ∧
      Mapping s'.sections x.process o m.nativeHandle m.mapping ∧ s.sections.name o = some (widenAscii m.ipcName) := by
  have hD : ¬ D x := fun hD => by
    rw [hd.gone hD] at hm
    cases hm
  rw [hd.other hD] at hm
  obtain ⟨o, hmap, hn⟩ := hi.mapped hm
  refine ⟨hm, o, hmap, hmap.keep fun r hr => hd.kept fun y hy hry => hD ?_, hn⟩
  rw [← System.slot_of_mappingAt hm] at hr
  rw [hi.owned.exclusive hr hry]
  exact hy

theorem Added.self {event : Event} (ha : Added s event s' x m o h v) :
    Mapping s'.sections x.process o m.nativeHandle m.mapping :=
  ⟨h, v, ha.handle, ha.view, ha.opened.toHolds⟩

theorem Added.old {event : Event} {y : Slot} {m' : SharedBufferPlatformMapping} (hi : Inv s)
    (ha : Added s event s' x m o h v) (hy : y ≠ x) (hm : s'.mappingAt y = some m') :
    s.mappingAt y = some m' ∧ ∃ o, Mapping s.sections y.process o m'.nativeHandle m'.mapping ∧
      Mapping s'.sections y.process o m'.nativeHandle m'.mapping ∧
      s.sections.name o = some (widenAscii m'.ipcName) := by
  rw [ha.other hy] at hm
  obtain ⟨o, hmap, hn⟩ := hi.mapped hm
  refine ⟨hm, o, hmap, hmap.keep fun r hr => ha.opened.keeps.refs fun hmem => ?_, hn⟩
  rw [← System.slot_of_mappingAt hm] at hr
  obtain ⟨k, hk⟩ := hi.owned.refers hr
  have hlt := NamedObjects.ref_lt hk
  rcases List.mem_cons.1 hmem with rfl | hmem
  · exact absurd hlt (Nat.not_lt.2 ha.opened.handleNew)
  · rw [List.mem_singleton.1 hmem] at hlt
    exact absurd hlt (Nat.not_lt.2 ha.opened.viewNew)

namespace Inv

theorem drop {D : Slot → Prop} (hi : Inv s) (hd : Dropped s s' D) : Inv s' where
  wf := hd.wf
  owned := hi.owned.drop (fun _ hD _ => hd.closed hD) (fun _ => hd.kept) (fun _ hD => System.slot_nil (hd.gone hD))
    fun _ hD => System.slot_congr (hd.other hD)
  mapped {x m} hm := by
    obtain ⟨-, o, -, hmap, hn⟩ := hd.mapping hi hm
    obtain ⟨a, ha, hna⟩ := Option.map_eq_some_iff.1 hn
    exact ⟨o, hmap, Option.map_eq_some_iff.2 ⟨a, Tally.get_of_initial hd.objects ha, hna⟩⟩
  distinct {p k b q j c m n} hm hn heq := by
    obtain ⟨hm, o, hmap, hmap', -⟩ := hd.mapping hi hm
    obtain ⟨hn, o', hnap, hnap', -⟩ := hd.mapping hi hn
    rw [hmap'.sectionOf, hnap'.sectionOf] at heq
    exact hi.distinct hm hn (by rw [hmap.sectionOf, hnap.sectionOf, heq])

theorem add {event : Event} (hi : Inv s) (ha : Added s event s' x m o h v) : Inv s' where
  wf := ha.opened.keeps.wf
  owned := by
    have hslot : s'.slot x = [v, h] := by rw [System.slot_of_mappingAt ha.mapping, ha.handle, ha.view, held_eq]
    have hk : Keeps s.sections s'.sections [v, h] := ha.opened.keeps.mono (by simp)
    refine hi.owned.add hk (fun r hr => ?_) (System.slot_nil ha.empty) hslot fun y hy =>
      System.slot_congr (ha.other hy)
    rcases List.mem_cons.1 hr with rfl | hr
    · exact ⟨ha.opened.viewNew, o, ha.opened.view⟩
    · rw [List.mem_singleton.1 hr]
      exact ⟨ha.opened.handleNew, o, ha.opened.handle⟩
  mapped {y m'} hm := by
    by_cases hy : y = x
    · rw [hy, ha.mapping] at hm
      cases hm
      rw [hy]
      exact ⟨o, ha.self, ha.name⟩
    · obtain ⟨-, o', -, hmap, hn⟩ := ha.old hi hy hm
      exact ⟨o', hmap, ha.opened.keeps.name hn⟩
  distinct := by
    -- the section of a new block is younger than all others
    have hne : ∀ p k b y m', x = .block p k b → y ≠ x → s'.mappingAt y = some m' →
        sectionOf s'.sections m.mapping ≠ sectionOf s'.sections m'.mapping := fun p k b y m' hb hy hm heq => by
      obtain ⟨-, o', hmap, hmap', -⟩ := ha.old hi hy hm
      rw [ha.self.sectionOf, hmap'.sectionOf] at heq
      cases heq
      exact absurd (hmap.lt hi.wf) (Nat.not_lt.2 (ha.fresh hb))
    intro p k b q j c m₁ m₂ h₁ h₂ heq
    by_cases hx₁ : Slot.block p k b = x
    · by_cases hx₂ : Slot.block q j c = x
      · cases hx₁.trans hx₂.symm
        exact ⟨rfl, rfl, rfl⟩
      · rw [hx₁, ha.mapping] at h₁
        cases h₁
        exact absurd heq (hne p k b _ m₂ hx₁.symm hx₂ h₂)
    · by_cases hx₂ : Slot.block q j c = x
      · rw [hx₂, ha.mapping] at h₂
        cases h₂
        exact absurd heq.symm (hne q j c _ m₁ hx₂.symm hx₁ h₁)
      · obtain ⟨h₁', o₁, hm₁, hm₁', -⟩ := ha.old hi hx₁ h₁
        obtain ⟨h₂', o₂, hm₂, hm₂', -⟩ := ha.old hi hx₂ h₂
        rw [hm₁'.sectionOf, hm₂'.sectionOf] at heq
        exact hi.distinct h₁' h₂' (by rw [hm₁.sectionOf, hm₂.sectionOf, heq])

theorem moves {event : Event} (hi : Inv s) (h : Moves s event s') : Inv s' := by
  cases h with
  | dropped D hd => exact hi.drop hd
  | added ha => exact hi.add ha

end Inv

/-- Imports by truthful descriptors leave mappings of the right size. -/
theorem Sized.moves {event : Event} (hs : Sized s) (hi : Inv s) (ht : Truthful s event) (h : Moves s event s') :
    Sized s' := by
  intro y m' o' hm hsec
  cases h with
  | dropped D hd =>
    obtain ⟨hm, o, hmap, hmap', -⟩ := hd.mapping hi hm
    rw [hmap'.sectionOf] at hsec
    cases hsec
    obtain ⟨a, ha, hsize⟩ := Option.map_eq_some_iff.1 (hs y m' _ hm hmap.sectionOf)
    exact Option.map_eq_some_iff.2 ⟨a, Tally.get_of_initial hd.objects ha, hsize⟩
  | @added x m o _ _ ha =>
    by_cases hy : y = x
    · rw [hy, ha.mapping] at hm
      cases hm
      rw [ha.self.sectionOf] at hsec
      cases hsec
      exact ha.size ht
    · obtain ⟨hm, o₁, hmap, hmap', -⟩ := ha.old hi hy hm
      rw [hmap'.sectionOf] at hsec
      cases hsec
      obtain ⟨a, ha', hsize⟩ := Option.map_eq_some_iff.1 (hs y m' _ hm hmap.sectionOf)
      exact Option.map_eq_some_iff.2 ⟨a, Tally.get_of_initial ha.opened.keeps.objects ha', hsize⟩

/-- The blocks of a pool give all their references back. -/
theorem destroyBlocks {l : List Block} (hw : t.Wf)
    (hmap : ∀ block ∈ l, ∃ o, Mapping t p o block.nativeHandle block.mapping)
    (hdis : l.Pairwise fun x y => ∀ r ∈ held x.nativeHandle x.mapping, r ∉ held y.nativeHandle y.mapping) :
    Keeps t (l.foldl (fun t block => destroyPlatformMapping t block.nativeHandle block.mapping) t)
      (l.flatMap fun block => held block.nativeHandle block.mapping) ∧
    ∀ r ∈ l.flatMap fun block => held block.nativeHandle block.mapping,
      (l.foldl (fun t block => destroyPlatformMapping t block.nativeHandle block.mapping) t).ref r = none := by
  induction l generalizing t with
  | nil => exact ⟨.refl hw, fun r hr => by cases hr⟩
  | cons block l ih =>
    obtain ⟨hne, hdis⟩ := List.pairwise_cons.1 hdis
    obtain ⟨o, h, v, hh, hv, hholds⟩ := hmap block List.mem_cons_self
    have hheld : held block.nativeHandle block.mapping = [v, h] := by rw [hh, hv, held_eq]
    rw [hheld] at hne
    rw [List.foldl_cons, List.flatMap_cons, hheld, hh, hv]
    obtain ⟨hk, hnone⟩ := hholds.destroy hw
    obtain ⟨hk', hnone'⟩ := ih hk.wf (fun other hother => by
      obtain ⟨o', hmap'⟩ := hmap other (List.mem_cons_of_mem _ hother)
      exact ⟨o', hmap'.keep fun r hr => hk.refs fun hm => hne other hother r hm hr⟩) hdis
    refine ⟨hk.trans hk', fun r hr => ?_⟩
    rcases List.mem_append.1 hr with hr | hr
    · rw [hk'.refs]
      · exact hnone r hr
      · intro hm
        obtain ⟨other, hother, hm⟩ := List.mem_flatMap.1 hm
        exact hne other hother r hr hm
    · exact hnone' r hr

end

/-! ### The step -/

namespace System
variable {s s' : System} {p k b q j c : Nat} {process process' : Process} {pool pool' : Pool} {block : Block}
  {t t' : Sections} {key : CacheKey} {x y : Slot} {m : SharedBufferPlatformMapping}

/-- A pool of a process changes. -/
theorem blockAt_setPool (h : s.running p = some process) (hk : process.livePool k = some pool) :
    (s.set p t (process.setPool k pool')).blockAt q j b =
      if q = p ∧ j = k then (if pool'.alive then pool'.allBlocks[b]? else none) else s.blockAt q j b := by
  have hkk : process.pools[k]? = some pool := (Option.filter_eq_some_iff.1 hk).1
  unfold blockAt
  rw [running_set h]
  by_cases hq : q = p
  · rw [if_pos hq, Process.alive_setPool, running_alive h, if_pos rfl, Option.bind_some]
    unfold Process.livePool Process.setPool
    dsimp only
    by_cases hj : j = k
    · rw [if_pos ⟨hq, hj⟩, hj, List.getElem?_set_self (List.getElem?_eq_some_iff.1 hkk).1, Option.filter_some]
      split <;> rfl
    · rw [if_neg fun h => hj h.2, List.getElem?_set_ne (Ne.symm hj), hq, h]
      rfl
  · rw [if_neg hq, if_neg fun h => hq h.1]

theorem entryAt_setPool (h : s.running p = some process) :
    (s.set p t (process.setPool k pool')).entryAt q key = s.entryAt q key := by
  unfold entryAt
  rw [running_set h]
  by_cases hq : q = p
  · rw [if_pos hq, Process.alive_setPool, running_alive h, if_pos rfl, hq, h]
    rfl
  · rw [if_neg hq]

theorem mappingAt_setPool_ne (h : s.running p = some process) (hk : process.livePool k = some pool)
    (hx : ∀ b, x ≠ .block p k b) : (s.set p t (process.setPool k pool')).mappingAt x = s.mappingAt x := by
  cases x with
  | block q j b =>
    have hne : ¬ (q = p ∧ j = k) := by
      rintro ⟨rfl, rfl⟩
      exact hx b rfl
    rw [mappingAt, mappingAt, blockAt_setPool h hk, if_neg hne]
  | entry q key => rw [mappingAt, mappingAt, entryAt_setPool h]

theorem mappingAt_setPool (h : s.running p = some process) (hk : process.livePool k = some pool)
    (hb : pool'.allBlocks = pool.allBlocks) (ha : pool'.alive = pool.alive) :
    (s.set p t (process.setPool k pool')).mappingAt x = s.mappingAt x := by
  have hal : pool.alive = true := (Option.filter_eq_some_iff.1 hk).2
  by_cases hx : ∃ b, x = .block p k b
  · obtain ⟨b, rfl⟩ := hx
    rw [mappingAt, mappingAt, blockAt_setPool h hk, if_pos ⟨rfl, rfl⟩, ha, hal, if_pos rfl, hb,
      blockAt_of_running h, hk]
    rfl
  · exact mappingAt_setPool_ne h hk fun b hb => hx ⟨b, hb⟩

/-- The cache of a process changes. -/
theorem mappingAt_setCache {cache : Cache} (h : s.running p = some process)
    (hx : ∀ key, x = .entry p key → cache.lookup key = process.cache.lookup key) :
    (s.set p t { process with cache := cache }).mappingAt x = s.mappingAt x := by
  cases x with
  | block q j b =>
    unfold mappingAt blockAt
    dsimp only
    rw [running_set h]
    by_cases hq : q = p
    · rw [if_pos hq, if_pos (running_alive h), hq, h]
      rfl
    · rw [if_neg hq]
  | entry q key =>
    unfold mappingAt entryAt
    dsimp only
    rw [running_set h]
    by_cases hq : q = p
    · rw [if_pos hq, if_pos (running_alive h), hq, h, Option.bind_some, Option.bind_some, hx key (by rw [hq])]
    · rw [if_neg hq]

end System

/-- What `create_block` comes to. -/
inductive BlockCreated (t : Sections) (pool : Pool) (p : Nat) : Sections → Pool → Except Failure Nat → Prop
  | threw {t' : Sections} {pool' : Pool} {x : Failure} : Keeps t t' [] → pool'.allBlocks = pool.allBlocks →
      pool'.alive = pool.alive → BlockCreated t pool p t' pool' (.error x)
  | made {t' : Sections} {pool' : Pool} {block : Block} {h v : Nat} : Opened t t' p t.objects.length h v →
      block.nativeHandle = h → block.mapping = some v →
      t'.objects = t.objects ++ [(widenAscii block.socketPath, UInt64.ofNat block.mappedSize)] →
      t.find (widenAscii block.socketPath) = none → pool'.allBlocks = pool.allBlocks ++ [block] →
      pool'.alive = pool.alive → BlockCreated t pool p t' pool' (.ok pool.allBlocks.length)

theorem createBlock_cases {t t' : Sections} {pool pool' : Pool} {p payloadSize : Nat} {pid : UInt32} {nonce : UInt64}
    {e : CreateEnv} {r : Except Failure Nat} (hw : t.Wf)
    (h : createBlock t pool p pid payloadSize nonce e = (t', pool', r)) : BlockCreated t pool p t' pool' r := by
  unfold createBlock at h
  split at h
  · cases h
    exact .threw (.refl hw) rfl rfl
  · rename_i hsize
    dsimp only at h
    generalize hm : createPlatformMapping t p pid (UInt64.ofNat (kSharedBufferPayloadOffset + payloadSize))
      pool.nextBlockId nonce e = q at h
    obtain ⟨t₁, r₁⟩ := q
    cases createPlatformMapping_cases hw hm with
    | exhausted hk =>
      cases h
      exact .threw hk rfl rfl
    | failed _ _ hk =>
      cases h
      exact .threw hk rfl rfl
    | unviewed _ _ _ _ hk =>
      cases h
      exact .threw hk rfl rfl
    | made _ _ hfree _ ho hobj =>
      dsimp only at h
      split at h
      · cases h
        exact .threw ho.destroy rfl rfl
      · cases h
        refine .made ho ?_ ?_ ?_ ?_ rfl rfl
        · rfl
        · rfl
        · rw [hobj, UInt64.ofNat_toNat]
        · exact hfree

theorem Process.livePool_get {process : Process} {k : Nat} {pool : Pool} (h : process.livePool k = some pool) :
    process.pools[k]? = some pool ∧ pool.alive = true :=
  Option.filter_eq_some_iff.1 h

namespace Moves
variable {s s' : System} {p k : Nat} {process : Process} {pool : Pool}

theorem spawn (hi : Inv s) (pid : UInt32) :
    Dropped s { s with processes := s.processes ++ [{ pid := pid }] } fun _ => False := by
  refine .of_same (.refl hi.wf) fun x => ?_
  by_cases hx : x.process = s.processes.length
  · -- a new process has nothing
    have hnew : ∀ y : Slot, y.process = s.processes.length →
        ({ s with processes := s.processes ++ [{ pid := pid }] } : System).mappingAt y = s.mappingAt y := by
      rintro (⟨p, k, b⟩ | ⟨p, key⟩) hp
      · have hp : p = s.processes.length := hp
        simp [System.mappingAt, System.blockAt, System.running, hp, Process.livePool]
      · have hp : p = s.processes.length := hp
        simp [System.mappingAt, System.entryAt, System.running, hp]
    exact hnew x hx
  · refine System.mappingAt_congr ?_
    unfold System.running
    dsimp only
    rcases Nat.lt_or_ge x.process s.processes.length with hlt | hge
    · rw [List.getElem?_append_left hlt]
    · rw [List.getElem?_append_right hge, List.getElem?_eq_none hge, List.getElem?_singleton, if_neg (by omega)]

theorem exit (hi : Inv s) (hp : s.running p = some process) :
    Dropped s (s.set p (s.sections.closeAll p) { process with alive := false }) fun x => x.process = p := by
  refine ⟨hi.wf.closeAll, List.prefix_rfl, fun {x r} hx hr => ?_, fun {r} hr => ?_, fun {x} hx => ?_, fun {x} hx => ?_⟩
  · obtain ⟨k, hk⟩ := hi.owned.refers hr
    show (s.sections.closeAll p).ref r = none
    rw [NamedObjects.ref_closeAll, hk, hx]
    simp
  · show (s.sections.closeAll p).ref r = s.sections.ref r
    rw [NamedObjects.ref_closeAll]
    cases hq : s.sections.ref r with
    | none => rfl
    | some a =>
      obtain ⟨x, hx⟩ := hi.owned.owner hq
      obtain ⟨k, hk⟩ := hi.owned.refers hx
      rw [hq] at hk
      cases hk
      exact Option.filter_some_pos (decide_eq_true fun heq => hr x heq hx)
  · have hnone : (s.set p (s.sections.closeAll p) { process with alive := false }).running x.process = none := by
      rw [System.running_set hp, if_pos hx]
      rfl
    cases x with
    | block q j b =>
      rw [System.mappingAt, System.blockAt, show System.running _ q = none from hnone]
      rfl
    | entry q key =>
      rw [System.mappingAt, System.entryAt, show System.running _ q = none from hnone]
      rfl
  · exact System.mappingAt_congr (by rw [System.running_set hp, if_neg hx])

theorem createPool (hi : Inv s) (hp : s.running p = some process) :
    Dropped s (s.set p s.sections { process with pools := process.pools ++ [{}] }) fun _ => False := by
  refine .of_same (.refl hi.wf) fun x => ?_
  by_cases hx : x.process = p
  · cases x with
    | block q j b =>
      have hq : q = p := hx
      rw [System.mappingAt, System.mappingAt, System.blockAt, System.running_set hp, if_pos hq,
        if_pos (System.running_alive hp), hq, System.blockAt_of_running hp, Option.bind_some]
      unfold Process.livePool
      dsimp only
      rcases Nat.lt_trichotomy j process.pools.length with hlt | heq | hgt
      · rw [List.getElem?_append_left hlt]
      · rw [heq, List.getElem?_concat_length, List.getElem?_eq_none (Nat.le_refl _)]
        rfl
      · rw [List.getElem?_eq_none (by rw [List.length_append]; exact hgt), List.getElem?_eq_none (Nat.le_of_lt hgt)]
    | entry q key =>
      have hq : q = p := hx
      rw [System.mappingAt, System.mappingAt, System.entryAt, System.running_set hp, if_pos hq,
        if_pos (System.running_alive hp), hq, System.entryAt_of_running hp]
      rfl
  · exact System.mappingAt_congr (by rw [System.running_set hp, if_neg hx])

theorem destroyPool (hi : Inv s) (hp : s.running p = some process) (hk : process.livePool k = some pool) :
    Dropped s
      (s.set p (Windows.destroyPool s.sections pool).1 (process.setPool k (Windows.destroyPool s.sections pool).2))
      fun x => ∃ b, x = .block p k b := by
  have hat : ∀ b block, pool.allBlocks[b]? = some block →
      s.mappingAt (.block p k b) = some block.platform := fun b block hb => by
    rw [System.mappingAt, System.blockAt_of_running hp, hk, Option.bind_some, hb]
    rfl
  have hslot : ∀ b r, r ∈ s.slot (.block p k b) ↔
      ∃ block, pool.allBlocks[b]? = some block ∧ r ∈ held block.nativeHandle block.mapping := fun b r => by
    cases hb : pool.allBlocks[b]? with
    | none =>
      rw [System.slot, System.mappingAt, System.blockAt_of_running hp, hk, Option.bind_some, hb]
      simp
    | some block =>
      rw [System.slot_of_mappingAt (hat b block hb)]
      simp [Block.platform]
  obtain ⟨hkeep, hnone⟩ := destroyBlocks (l := pool.allBlocks) hi.wf (fun block hmem => by
    obtain ⟨b, hb⟩ := List.mem_iff_getElem?.1 hmem
    obtain ⟨o, hmap, -⟩ := hi.mapped (hat b block hb)
    exact ⟨o, hmap⟩) (List.pairwise_iff_getElem.2 fun i j hlt hlt' hij r hr hr' => by
      have hx := (hslot i r).2 ⟨_, List.getElem?_eq_getElem hlt, hr⟩
      have hy := (hslot j r).2 ⟨_, List.getElem?_eq_getElem hlt', hr'⟩
      cases hi.owned.exclusive hx hy
      exact Nat.lt_irrefl _ hij)
  refine ⟨hkeep.wf, hkeep.objects, ?_, fun {r} hr => ?_, ?_, fun {x} hx => ?_⟩
  · rintro _ r ⟨b, rfl⟩ hr
    obtain ⟨block, hb, hr⟩ := (hslot b r).1 hr
    exact hnone r (List.mem_flatMap.2 ⟨block, List.mem_of_getElem? hb, hr⟩)
  · refine hkeep.refs fun hm => ?_
    obtain ⟨block, hmem, hm⟩ := List.mem_flatMap.1 hm
    obtain ⟨b, hb⟩ := List.mem_iff_getElem?.1 hmem
    exact hr _ ⟨b, rfl⟩ ((hslot b r).2 ⟨block, hb, hm⟩)
  · rintro _ ⟨b, rfl⟩
    rw [System.mappingAt, System.blockAt_setPool hp hk, if_pos ⟨rfl, rfl⟩]
    rfl
  · exact System.mappingAt_setPool_ne hp hk fun b hb => hx ⟨b, hb⟩

theorem createBlock (hp : s.running p = some process) (hk : process.livePool k = some pool) {t' : Sections}
    {pool' : Pool} {r : Except Failure Nat} {payloadSize : Nat} {nonce : UInt64} {e : CreateEnv}
    (hc : BlockCreated s.sections pool p t' pool' r) :
    Moves s (.createBlock p k payloadSize nonce e) (s.set p t' (process.setPool k pool')) := by
  cases hc with
  | threw hkeep hb ha => exact .dropped _ (.of_same hkeep fun x => System.mappingAt_setPool hp hk hb ha)
  | @made block h v ho hh hv hobj hfree hb ha =>
    have hal : pool'.alive = true := ha.trans (Process.livePool_get hk).2
    have hbefore : s.mappingAt (.block p k pool.allBlocks.length) = none := by
      rw [System.mappingAt, System.blockAt_of_running hp, hk, Option.bind_some, List.getElem?_eq_none (Nat.le_refl _)]
      rfl
    refine .added (x := .block p k pool.allBlocks.length) (m := block.platform) ⟨ho, hbefore, ?_, hh, hv, ?_,
      fun _ => Nat.le_refl _, fun _ => ?_, fun {y} hy => ?_⟩
    · rw [System.mappingAt, System.blockAt_setPool hp hk, if_pos ⟨rfl, rfl⟩, hal, if_pos rfl, hb,
        List.getElem?_concat_length]
      rfl
    · show (t'.objects[s.sections.objects.length]?).map Prod.fst = _
      rw [hobj, List.getElem?_concat_length]
      rfl
    · show (t'.objects[s.sections.objects.length]?).map Prod.snd = _
      rw [hobj, List.getElem?_concat_length]
      rfl
    · by_cases hpk : ∃ b, y = .block p k b
      · obtain ⟨b, rfl⟩ := hpk
        have hne : b ≠ pool.allBlocks.length := fun hb => hy (by rw [hb])
        rw [System.mappingAt, System.mappingAt, System.blockAt_setPool hp hk, if_pos ⟨rfl, rfl⟩, hal, if_pos rfl, hb,
          System.blockAt_of_running hp, hk, Option.bind_some]
        congr 1
        rcases Nat.lt_or_gt_of_ne hne with hlt | hgt
        · rw [List.getElem?_append_left hlt]
        · rw [List.getElem?_eq_none (by rw [List.length_append]; exact hgt), List.getElem?_eq_none (Nat.le_of_lt hgt)]
      · exact System.mappingAt_setPool_ne hp hk fun b hb => hpk ⟨b, hb⟩

theorem importBlock (hi : Inv s) (hp : s.running p = some process) {d : Message} {e : ImportEnv} {t' : Sections}
    {cache' : Cache} {r : Except Failure SharedBufferImportedBlock}
    (ho : ImportOutcome s.sections process.cache p d e t' cache' r) :
    Moves s (.importBlock p d e) (s.set p t' { process with cache := cache' }) := by
  cases ho with
  | threw hkeep => exact .dropped _ (.of_same hkeep fun x => System.mappingAt_setCache hp fun _ _ => rfl)
  | found hc hval => exact .dropped _ (.of_same (.refl hi.wf) fun x => System.mappingAt_setCache hp fun _ _ => rfl)
  | @opened _ _ _ _ block hc hf hopen hh hv hval =>
    have hbefore : s.mappingAt (.entry p d.key) = none := by
      rw [System.mappingAt, System.entryAt_of_running hp, hc]
      rfl
    refine .added (x := .entry p d.key) (m := entryPlatform d.key block) ⟨hopen, hbefore, ?_, hh, hv, ?_,
      fun hx => (by cases hx), fun ht => ?_, fun {y} hy => ?_⟩
    · rw [System.mappingAt, System.entryAt, System.running_set hp, if_pos rfl, if_pos (System.running_alive hp),
        Option.bind_some, List.lookup_cons_self]
      rfl
    · exact hopen.keeps.name (NamedObjects.find_some hf).2
    · obtain ⟨a, ha, hsize⟩ := Option.map_eq_some_iff.1 (ht _ hf)
      refine Option.map_eq_some_iff.2 ⟨a, Tally.get_of_initial hopen.keeps.objects ha, hsize.trans ?_⟩
      exact (validate_ok.1 hval).2.1.symm
    · refine System.mappingAt_setCache hp fun key hkey => ?_
      have hne : (key == d.key) = false := beq_false_of_ne fun heq => hy (by rw [hkey, heq])
      rw [List.lookup_cons, hne]

theorem of_step {event : Event} (hi : Inv s) (h : s.step event = some s') : Moves s event s' := by
  cases event with
  | spawn pid =>
    simp only [System.step] at h
    split at h
    · cases h
    · cases h
      exact .dropped _ (spawn hi pid)
  | exit p =>
    obtain ⟨process, hp, rfl⟩ := Option.map_eq_some_iff.1 h
    exact .dropped _ (exit hi hp)
  | createPool p =>
    obtain ⟨process, hp, rfl⟩ := Option.map_eq_some_iff.1 h
    exact .dropped _ (createPool hi hp)
  | destroyPool p k =>
    obtain ⟨process, hp, h⟩ := Option.bind_eq_some_iff.1 h
    obtain ⟨pool, hk, rfl⟩ := Option.map_eq_some_iff.1 h
    exact .dropped _ (destroyPool hi hp hk)
  | createBlock p k payloadSize nonce e =>
    obtain ⟨process, hp, h⟩ := Option.bind_eq_some_iff.1 h
    obtain ⟨pool, hk, rfl⟩ := Option.map_eq_some_iff.1 h
    generalize hc : Windows.createBlock s.sections pool p process.pid payloadSize nonce e = q
    obtain ⟨t', pool', r⟩ := q
    exact createBlock hp hk (createBlock_cases hi.wf hc)
  | importBlock p d e =>
    obtain ⟨process, hp, rfl⟩ := Option.map_eq_some_iff.1 h
    generalize hc : Windows.importBlock s.sections process.cache p d e = q
    obtain ⟨t', cache', r⟩ := q
    exact importBlock hi hp (importBlock_cases hi.wf hc)

end Moves

namespace Inv
variable {s s' : System} {event : Event}

theorem start : Inv {} := by
  have hnone : ∀ x, ({} : System).mappingAt x = none := fun x => by cases x <;> rfl
  have hnil : ∀ x, ({} : System).slot x = [] := fun x => System.slot_nil (hnone x)
  refine ⟨.empty, ⟨fun {x y r} h => ?_, fun {x r} h => ?_, fun h => by cases h⟩, fun {x m} h => ?_, fun h => ?_⟩
  · rw [hnil] at h
    cases h
  · rw [hnil] at h
    cases h
  · rw [hnone] at h
    cases h
  · rw [hnone] at h
    cases h

theorem next (hi : Inv s) (h : s.step event = some s') : Inv s' := hi.moves (.of_step hi h)

theorem of_reachable (h : Reachable s) : Inv s :=
  h.inv (fun _ h => by rw [h]; exact .start) fun _ _ _ hi _ hs => hi.next hs

end Inv

theorem Sized.of_truthful {s : System} (h : Machine.ReachIf System.step Init Truthful s) : Sized s := by
  refine h.inv_of (fun _ hr => Inv.of_reachable hr.reach) (fun s h x m o hm => ?_) fun s event s' hi hs ht hstep =>
    hs.moves hi ht (.of_step hi hstep)
  rw [h] at hm
  cases x <;> cases hm

end MemfdBuffer.Windows
