import MemfdBuffer.Proc.Calls
import MemfdBuffer.PoolInv
import MemfdBuffer.Lib.Machine

/-!
# Which endpoints get a descriptor

The decision of `on_discovering_endpoint` is kept by GID and consulted by
`create_descriptor_with_endpoint`. A `Session` is a process with the discoveries it has seen; between its
discoveries and publications anything may happen to the rest of the process. An endpoint that was never
discovered has no entry, and a missing entry does not refuse.
-/

namespace MemfdBuffer.Proc

/-- `endpoint_supported_backends`. -/
abbrev Backends := String → Option String

/-- A discovery as it reaches `on_discovering_endpoint`. -/
structure Discovery where
  gid : GidKey
  backends : Backends

structure Session where
  world : World
  /-- The discoveries so far, the last one first. -/
  history : List Discovery := []

inductive SessionOp
  | discover (d : Discovery)
  | create (impl : Option Nat) (gid : GidKey) (e : DescriptorEnv)
  /-- Any other calls: the backend's cache and its metadata are out of their reach. -/
  | other (w : World)

namespace Session

def step (s : Session) : SessionOp → Option Session
  | .discover d => some ⟨s.world.onDiscoveringEndpoint d.gid (d.backends "shared_buffer"), d :: s.history⟩
  | .create impl gid e => some { s with world := (s.world.createDescriptorWithEndpoint impl gid e).1 }
  | .other w =>
    some { s with
      world := { w with compatibilityCache := s.world.compatibilityCache, metadata := s.world.metadata } }

/-- A process whose backend has just been loaded. -/
def Init (s : Session) : Prop := s.history = [] ∧ ∀ gid, s.world.compatibilityCache gid = none

abbrev Reachable (s : Session) : Prop := Machine.Reach step Init s

/-- What the most recent discovery of `gid` advertised. -/
def latest (s : Session) (gid : GidKey) : Option Backends :=
  (s.history.find? fun d => d.gid = gid).map (·.backends)

def Discovered (s : Session) (gid : GidKey) : Prop := ∃ d ∈ s.history, d.gid = gid

/-- The most recent discovery of `gid` advertised shared memory at the place of this process. -/
def Positive (s : Session) (gid : GidKey) : Prop :=
  ∃ backends, s.latest gid = some backends ∧ backends "shared_buffer" = some s.world.metadata

end Session

/-- The buffer can be published, whoever asks: a relayed one is still the generation it was imported as, a
local one has a block that is served or can be. -/
def Publishable (w : World) (impl : Option Nat) (e : DescriptorEnv) : Prop :=
  ∃ s, (impl >>= w.buf) = some s ∧
    if s.shared.hasIpcDescriptor then
      ∃ b block, s.shared.control = some b ∧ w.pool.allBlocks[b]? = some block ∧
        relayAccepts s.shared block.control = true
    else
      ∃ b block, s.shared.dataPtr = some b ∧ w.pool.allBlocks[b]? = some block ∧ 0 ≤ block.nativeHandle ∧
        match w.pool.registeredBlocks block.blockId with
        | some path => path ≠ ""
        | none => e.socket = .ok ()

/-- The header of every block is as it was. -/
def SameControl (p q : Pool) : Prop :=
  ∀ c : Nat, (q.allBlocks[c]?).map (·.control) = (p.allBlocks[c]?).map (·.control)

namespace SameControl
variable {p q q' : Pool} {b : Nat} {block : SharedBufferBlock}

theorem refl (p : Pool) : SameControl p p := fun _ => rfl

theorem trans (h : SameControl p q) (h' : SameControl q q') : SameControl p q' :=
  fun c => (h' c).trans (h c)

theorem get (h : SameControl p q) (hb : p.allBlocks[b]? = some block) :
    ∃ block', q.allBlocks[b]? = some block' := by
  have hc := h b
  rw [hb, Option.map_some, Option.map_eq_some_iff] at hc
  obtain ⟨block', hb', -⟩ := hc
  exact ⟨block', hb'⟩

theorem modifyBlock {f : SharedBufferBlock → SharedBufferBlock} (hf : ∀ x, (f x).control = x.control) :
    SameControl p (p.modifyBlock b f) := by
  intro c
  rw [Pool.get_modifyBlock, Option.map_map]
  congr 1
  funext x
  show (if c = b then f x else x : SharedBufferBlock).control = x.control
  split
  · exact hf x
  · rfl

theorem assignUid (uid : UInt64) : SameControl p (p.assignUid b uid).1 := by
  unfold Pool.assignUid
  split
  · exact refl p
  · split
    · exact modifyBlock fun _ => rfl
    · exact refl p

theorem registerBlock (euid : Nat) (pid : Int) (socket : Except Exn Unit) :
    SameControl p (p.registerBlock b euid pid socket).1 := by
  unfold Pool.registerBlock
  split
  · exact refl p
  · rename_i block hb
    split
    · exact refl p
    · split
      · exact refl p
      · exact refl p
      · exact modifyBlock (f := fun x => { x with
          socketPath := blockSocketPath euid pid block.blockId block.nativeHandle }) fun _ => rfl

end SameControl

theorem assignUid_ne_zero {pool : Pool} {b : Nat} {block : SharedBufferBlock} (uid : UInt64)
    (hb : pool.allBlocks[b]? = some block) : (pool.assignUid b uid).2 ≠ 0 := by
  simp only [Pool.assignUid, hb]
  split
  · exact drawUid_ne_zero uid
  · assumption

/-- Registration answers with a path exactly if the block has a file and is served, or can be. -/
theorem registerBlock_path {pool : Pool} {b : Nat} {block : SharedBufferBlock} (euid : Nat) (pid : Int)
    (socket : Except Exn Unit) (hb : pool.allBlocks[b]? = some block) :
    (∃ path, (pool.registerBlock b euid pid socket).2 = .ok path ∧ path ≠ "") ↔
      0 ≤ block.nativeHandle ∧
        match pool.registeredBlocks block.blockId with
        | some path => path ≠ ""
        | none => socket = .ok () := by
  unfold Pool.registerBlock
  rw [hb]
  dsimp only
  split
  · rename_i hneg
    constructor
    · rintro ⟨path, hp, hne⟩
      cases hp
      exact absurd rfl hne
    · rintro ⟨h0, -⟩
      omega
  · rename_i hneg
    have h0 : 0 ≤ block.nativeHandle := by omega
    cases hreg : pool.registeredBlocks block.blockId with
    | some path => simp [h0]
    | none =>
      cases socket with
      | error x => simp
      | ok u => simp [h0, blockSocketPath_ne]

namespace World
variable {w w' : World} {s : Buf} {b : Nat} {impl : Option Nat} {gid : GidKey} {e : DescriptorEnv}
  {block : SharedBufferBlock} {d : Option SharedBufferDescriptor}

/-- The owner's path ends in a descriptor exactly if the block can be registered, and otherwise leaves the
headers alone. -/
theorem ownerPublish_none (hb : w.pool.allBlocks[b]? = some block) (he : w.ownerPublish s b e = (w', d)) :
    (d ≠ none ↔ 0 ≤ block.nativeHandle ∧
      match w.pool.registeredBlocks block.blockId with
      | some path => path ≠ ""
      | none => e.socket = .ok ()) ∧
    (d = none → SameControl w.pool w'.pool) := by
  rw [← registerBlock_path w.euid w.pid e.socket hb]
  have hsame := SameControl.registerBlock (p := w.pool) (b := b) w.euid w.pid e.socket
  unfold ownerPublish at he
  cases hr : w.pool.registerBlock b w.euid w.pid e.socket with
  | mk pool res =>
    rw [hr] at he hsame
    cases res with
    | error x =>
      cases he
      refine ⟨⟨fun h => absurd rfl h, ?_⟩, fun _ => hsame⟩
      rintro ⟨path, hp, -⟩
      cases hp
    | ok path =>
      obtain ⟨block₁, hb₁⟩ := hsame.get hb
      have hsame₂ := hsame.trans (.assignUid (b := b) e.uid)
      obtain ⟨block₂, hb₂⟩ := hsame₂.get hb
      have huid := assignUid_ne_zero e.uid hb₁
      dsimp only at he
      split at he
      · rename_i hempty
        cases he
        refine ⟨⟨fun h => absurd rfl h, ?_⟩, fun _ => hsame₂⟩
        rintro ⟨path', hp, hne⟩
        cases hp
        rcases hempty with h | h
        · exact absurd h hne
        · exact absurd h huid
      · rename_i hfull
        push Not at hfull
        rw [hb₂] at he
        cases he
        exact ⟨⟨fun _ => ⟨path, rfl, hfull.1⟩, fun _ h => by cases h⟩, fun h => by cases h⟩

theorem relayPublish_none (he : w.relayPublish s e = (w', d)) :
    (d ≠ none ↔ ∃ b block, s.shared.control = some b ∧ w.pool.allBlocks[b]? = some block ∧
      relayAccepts s.shared block.control = true) ∧
    (d = none → SameControl w.pool w'.pool) := by
  unfold relayPublish at he
  split at he
  · rename_i hnone
    cases he
    refine ⟨⟨fun h => absurd rfl h, ?_⟩, fun _ => .refl _⟩
    rintro ⟨b, block, hc, hb, -⟩
    rw [hc, Option.bind_eq_bind, Option.bind_some, hb] at hnone
    cases hnone
  · rename_i b block hsome
    obtain ⟨b', hc, hb'⟩ := Option.bind_eq_some_iff.1 hsome
    obtain ⟨block', hb, hpair⟩ := Option.map_eq_some_iff.1 hb'
    cases hpair
    split at he
    · rename_i hacc
      cases he
      exact ⟨⟨fun _ => ⟨b, block, hc, hb, hacc⟩, fun _ h => by cases h⟩, fun h => by cases h⟩
    · rename_i hacc
      cases he
      refine ⟨⟨fun h => absurd rfl h, ?_⟩, fun _ => .refl _⟩
      rintro ⟨b₁, block₁, hc₁, hb₁, hacc₁⟩
      rw [hc] at hc₁
      cases hc₁
      rw [hb] at hb₁
      cases hb₁
      exact absurd hacc₁ hacc

/-- An endpoint recorded as incompatible gets nothing. Any other gets a descriptor exactly if the buffer can
be published. Where there is no descriptor no header has changed. -/
theorem createDescriptor_none (he : w.createDescriptorWithEndpoint impl gid e = (w', d)) :
    (d ≠ none ↔ w.compatibilityCache gid ≠ some false ∧ Publishable w impl e) ∧
      (d = none → SameControl w.pool w'.pool) := by
  unfold createDescriptorWithEndpoint at he
  split at he
  · rename_i hcache
    cases he
    exact ⟨⟨fun h => absurd rfl h, fun h => absurd hcache h.1⟩, fun _ => .refl _⟩
  · rename_i hcache
    cases hs : impl >>= w.buf with
    | none =>
      rw [hs] at he
      cases he
      refine ⟨⟨fun h => absurd rfl h, ?_⟩, fun _ => .refl _⟩
      rintro ⟨-, s, hs', -⟩
      rw [hs] at hs'
      cases hs'
    | some s =>
      rw [hs] at he
      dsimp only at he
      have hpub : Publishable w impl e ↔ _ :=
        ⟨fun ⟨s', hs', h⟩ => by rw [hs] at hs'; cases hs'; exact h, fun h => ⟨s, hs, h⟩⟩
      rw [hpub]
      have hpool := pool_finalizeWriteHandle (w := w) s.shared
      split at he
      · rename_i hipc
        obtain ⟨hiff, hsame⟩ := relayPublish_none he
        rw [hpool] at hiff hsame
        rw [if_pos hipc]
        exact ⟨hiff.trans ⟨fun h => ⟨hcache, h⟩, fun h => h.2⟩, hsame⟩
      · rename_i hipc
        rw [if_neg hipc]
        cases hf : (w.finalizeWriteHandle s.shared).findBlockForPtr s.shared.dataPtr with
        | none =>
          rw [hf] at he
          cases he
          refine ⟨⟨fun h => absurd rfl h, ?_⟩, fun _ c => by rw [hpool]⟩
          rintro ⟨-, b, block, hp, hb, -⟩
          rw [findBlockForPtr, hp, hpool, Option.filter_some, hb] at hf
          cases hf
        | some b =>
          rw [hf] at he
          obtain ⟨hptr, hsome⟩ := Option.filter_eq_some_iff.1 hf
          obtain ⟨block, hb⟩ := Option.isSome_iff_exists.1 hsome
          obtain ⟨hiff, hsame⟩ := ownerPublish_none hb he
          rw [hpool] at hiff hsame hb
          refine ⟨hiff.trans ⟨?_, ?_⟩, hsame⟩
          · intro h
            exact ⟨hcache, b, block, hptr, hb, h⟩
          · rintro ⟨-, b', block', hp', hb', h⟩
            rw [hptr] at hp'
            cases hp'
            rw [hb] at hb'
            cases hb'
            exact h

/-- The owner's path changes the pool only. -/
theorem ownerPublish_withPool (he : w.ownerPublish s b e = (w', d)) : ∃ pool, w' = w.withPool pool := by
  unfold ownerPublish at he
  split at he
  · cases he
    exact ⟨_, rfl⟩
  · dsimp only at he
    split at he
    · cases he
      exact ⟨_, rfl⟩
    · split at he
      · cases he
        exact ⟨_, rfl⟩
      · cases he
        exact ⟨_, rfl⟩

theorem relayPublish_withPool (he : w.relayPublish s e = (w', d)) : ∃ pool, w' = w.withPool pool := by
  unfold relayPublish at he
  split at he
  · cases he
    exact ⟨w.pool, rfl⟩
  · split at he
    · cases he
      exact ⟨_, rfl⟩
    · cases he
      exact ⟨w.pool, rfl⟩

/-- A publication changes the pool and the handle states only. -/
theorem createDescriptor_frame (he : w.createDescriptorWithEndpoint impl gid e = (w', d)) :
    ∃ pool states, w' = { w with pool := pool, states := states } := by
  unfold createDescriptorWithEndpoint at he
  split at he
  · cases he
    exact ⟨w.pool, w.states, rfl⟩
  · split at he
    · cases he
      exact ⟨w.pool, w.states, rfl⟩
    · rename_i s hs
      obtain ⟨states, hstates⟩ := w.finalizeWriteHandle_eq s.shared
      dsimp only at he
      rw [hstates] at he
      split at he
      · obtain ⟨pool, rfl⟩ := relayPublish_withPool he
        exact ⟨pool, states, rfl⟩
      · split at he
        · cases he
          exact ⟨w.pool, states, rfl⟩
        · obtain ⟨pool, rfl⟩ := ownerPublish_withPool he
          exact ⟨pool, states, rfl⟩

end World

/-! ### Runs -/

namespace Session
variable {s s' : Session}

/-- The cache of the backend records the most recent discovery of each GID. -/
def Recorded (s : Session) : Prop :=
  ∀ gid, s.world.compatibilityCache gid =
    (s.latest gid).map fun backends => decide (backends "shared_buffer" = some s.world.metadata)

theorem Recorded.next (h : Recorded s) {op : SessionOp} (hs : step s op = some s') : Recorded s' := by
  cases op with
  | discover d =>
    cases hs
    intro gid
    show Function.update s.world.compatibilityCache d.gid _ gid = _
    by_cases hg : d.gid = gid
    · subst hg
      rw [Function.update_self, latest, List.find?_cons_of_pos (by simp)]
      rfl
    · rw [Function.update_of_ne (Ne.symm hg), h gid, latest, latest, List.find?_cons_of_neg (by simpa using hg)]
      rfl
  | create impl gid e =>
    cases hs
    cases he : s.world.createDescriptorWithEndpoint impl gid e with
    | mk w d =>
      obtain ⟨pool, states, rfl⟩ := World.createDescriptor_frame he
      exact h
  | other w =>
    cases hs
    exact h

theorem Reachable.recorded (h : Reachable s) : Recorded s := by
  refine Machine.ReachIf.inv (P := Recorded) ?_ (fun _ _ _ hr _ hs => hr.next hs) h
  rintro s ⟨hhist, hcache⟩ gid
  rw [hcache, latest, hhist]
  rfl

theorem latest_eq_none (gid : GidKey) : s.latest gid = none ↔ ¬ s.Discovered gid := by
  rw [latest, Option.map_eq_none_iff, List.find?_eq_none]
  constructor
  · rintro h ⟨d, hd, hg⟩
    exact h d hd (by simpa using hg)
  · intro h d hd hg
    exact h ⟨d, hd, by simpa using hg⟩

/-- An endpoint gets a descriptor only on a positive most recent discovery, and a call that gives none
leaves every header alone. -/
def Conservative (s : Session) (impl : Option Nat) (gid : GidKey) (e : DescriptorEnv) : Prop :=
  ((s.world.createDescriptorWithEndpoint impl gid e).2 ≠ none → s.Positive gid) ∧
    (¬ s.Positive gid → (s.world.createDescriptorWithEndpoint impl gid e).2 = none ∧
      SameControl s.world.pool (s.world.createDescriptorWithEndpoint impl gid e).1.pool)

/-- The decision is conservative for exactly the endpoints that were discovered, whatever they advertised;
for any other a buffer that can be published is published. -/
theorem conservative_iff_discovered (h : Reachable s) (impl : Option Nat) (gid : GidKey) (e : DescriptorEnv) :
    s.Conservative impl gid e ↔ (s.Discovered gid ∨ ¬ Publishable s.world impl e) := by
  obtain ⟨hiff, hsame⟩ := World.createDescriptor_none (Prod.eta (s.world.createDescriptorWithEndpoint impl gid e))
  have hcache := h.recorded gid
  have hpos : s.Positive gid ↔ s.world.compatibilityCache gid = some true := by
    rw [hcache, Option.map_eq_some_iff]
    simp [Positive]
  unfold Conservative
  constructor
  · rintro ⟨hp, -⟩
    by_contra hc
    push Not at hc
    have hnone := (latest_eq_none gid).2 hc.1
    rw [hnone, Option.map_none] at hcache
    obtain ⟨backends, hl, -⟩ := hp (hiff.2 ⟨by rw [hcache]; simp, hc.2⟩)
    rw [hnone] at hl
    cases hl
  · intro hc
    have hout : (s.world.createDescriptorWithEndpoint impl gid e).2 ≠ none → s.Positive gid := by
      intro hd
      obtain ⟨hne, hpub⟩ := hiff.1 hd
      rcases hc with hdisc | hnot
      · rw [hpos]
        cases hl : s.latest gid with
        | none => exact absurd hdisc ((latest_eq_none gid).1 hl)
        | some backends =>
          rw [hcache, hl, Option.map_some] at hne ⊢
          simpa using hne
      · exact absurd hpub hnot
    refine ⟨hout, fun hnp => ?_⟩
    have hd : (s.world.createDescriptorWithEndpoint impl gid e).2 = none := by
      by_contra hd
      exact hnp (hout hd)
    exact ⟨hd, hsame hd⟩

/-- A process with one buffer of 8 bytes that has discovered nobody. -/
def undiscovered : Session := ⟨(World.construct {} 1 8 {}).1, []⟩

theorem undiscovered_reachable : Reachable undiscovered :=
  .start ⟨rfl, fun _ => rfl⟩

/-- The same process once an endpoint at its own place has been discovered. -/
def discovered : Session :=
  ⟨undiscovered.world.onDiscoveringEndpoint [7] (some ""), [⟨[7], fun _ => some ""⟩]⟩

theorem discovered_reachable : Reachable discovered :=
  .next (a := .discover ⟨[7], fun _ => some ""⟩) undiscovered_reachable trivial rfl

theorem conservative_iff_discovered_positive : discovered.Conservative (some 0) [7] {} ∧
    (discovered.world.createDescriptorWithEndpoint (some 0) [7] {}).2 ≠ none :=
  ⟨(conservative_iff_discovered discovered_reachable (some 0) [7] {}).2 (.inl ⟨_, .head _, rfl⟩), by decide⟩

theorem undiscovered_published : Reachable undiscovered ∧ ¬ undiscovered.Conservative (some 0) [7] {} := by
  refine ⟨undiscovered_reachable, ?_⟩
  rintro ⟨hp, -⟩
  obtain ⟨backends, hl, -⟩ := hp (by decide)
  cases hl

end Session

end MemfdBuffer.Proc
