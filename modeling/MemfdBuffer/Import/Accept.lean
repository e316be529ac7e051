import MemfdBuffer.Import.Outcome

/-!
# What is accepted, and where the payload lies

A descriptor comes from a message and the header from memory that others write, so nothing is known of
either beforehand. The cache is known: what it holds is mapped, at the length it tells.
-/

namespace MemfdBuffer.Import

/-- The payload lies behind the header in a region that is still mapped. -/
def InBounds (w : World) (buffer : SharedBuffer) : Prop :=
  ∃ m len, buffer.dataPtr = some m ∧ w.mmaps[m]? = some len ∧ m ∉ w.unmapped ∧
    kSharedBufferPayloadOffset + buffer.size ≤ len.toNat

/-- What an accepted descriptor becomes. -/
structure Serves (w : World) (d : Message) (impl : SharedBufferImpl) : Prop where
  readOnly : impl.sharedBuffer.writable = false
  implSize : impl.size = d.size.toNat
  size : impl.sharedBuffer.size = d.size.toNat
  inBounds : InBounds w impl.sharedBuffer
  hasIpcDescriptor : impl.sharedBuffer.hasIpcDescriptor = true

/-- What the cache and the mappings of a process are like. -/
structure Inv (w : World) : Prop where
  cached {key : CacheKey} {block : SharedBufferImportedBlock} : w.cache key = some block →
    ∃ m, block.mapping = some m ∧ w.mmaps[m]? = some block.mappedSize ∧ m ∉ w.unmapped
  unmapped {m : Nat} : m ∈ w.unmapped → m < w.mmaps.length

namespace Inv
variable {w w' w₁ : World} {e : Env} {d : Message} {l : List Touch} {m : Nat} {block : SharedBufferImportedBlock}
  {size : UInt64}

theorem congr (hc : w'.cache = w.cache) (hm : w'.mmaps = w.mmaps) (hu : w'.unmapped = w.unmapped) (h : Inv w) :
    Inv w' := by
  constructor
  · intro key block hk
    rw [hc] at hk
    rw [hm, hu]
    exact h.cached hk
  · intro m hmem
    rw [hu] at hmem
    rw [hm]
    exact h.unmapped hmem

/-- The number of the next mapping has not been used. -/
theorem length_not_mem (h : Inv w) : w.mmaps.length ∉ w.unmapped := fun hmem => Nat.lt_irrefl _ (h.unmapped hmem)

theorem mapping_lt (h : Inv w) {key : CacheKey} (hk : w.cache key = some block) (hm : block.mapping = some m) :
    m < w.mmaps.length := by
  obtain ⟨n, hn, hlen, -⟩ := h.cached hk
  rw [hm] at hn
  cases hn
  exact (List.getElem?_eq_some_iff.1 hlen).1

/-- One more region, with the cache as it was. -/
theorem opened (h : Inv w) (hc : w'.cache = w.cache) (hm : w'.mmaps = w.mmaps ++ [size])
    (hu : ∀ m ∈ w'.unmapped, m ∈ w.unmapped ∨ m = w.mmaps.length) : Inv w' := by
  constructor
  · intro key block hk
    rw [hc] at hk
    obtain ⟨m, hbm, hlen, hmem⟩ := h.cached hk
    have hlt := (List.getElem?_eq_some_iff.1 hlen).1
    refine ⟨m, hbm, ?_, fun hm' => ?_⟩
    · rw [hm, List.getElem?_append_left hlt, hlen]
    · rcases hu m hm' with hm' | rfl
      · exact hmem hm'
      · exact Nat.lt_irrefl _ hlt
  · intro m hmem
    rw [hm, List.length_append]
    rcases hu m hmem with hmem | rfl
    · exact Nat.lt_succ_of_lt (h.unmapped hmem)
    · exact Nat.lt_succ_self _

theorem of_import {r : Except Failure SharedBufferImportedBlock} (h : Inv w) (ho : ImportOutcome e w d w' r) :
    Inv w' := by
  rcases ho with ⟨hq, -, -⟩ | ⟨hq, -⟩ | ⟨-, -, hc, hm, hu, -⟩ | ⟨-, -, -, hc, hm, hu, -⟩ |
    ⟨-, -, -, -, -, hf, hc, hm, hu, -⟩
  · exact h.congr hq.cache hq.mmaps hq.unmapped
  · exact h.congr hq.cache hq.mmaps hq.unmapped
  · refine h.opened hc hm fun m hmem => .inl ?_
    rw [← hu]
    exact hmem
  · refine h.opened hc hm fun m hmem => ?_
    rw [hu, List.mem_append, List.mem_singleton] at hmem
    exact hmem
  · have h₁ : Inv { w' with cache := w.cache } := h.opened rfl hm fun m hmem => .inl (by rw [← hu]; exact hmem)
    refine ⟨fun {key b} hk => ?_, h₁.unmapped⟩
    rw [hc, Function.update_apply] at hk
    split at hk
    · cases hk
      refine ⟨_, hf.mapping, ?_, ?_⟩
      · rw [hm, List.getElem?_concat_length, hf.size]
      · rw [hu]
        exact h.length_not_mem
    · exact h₁.cached hk

theorem of_touches (h : Inv w) (ht : Touches w w' l) : Inv w' := h.congr ht.cache ht.mmaps ht.unmapped

theorem of_outcome {r : Except Failure SharedBufferImpl} (h : Inv w) (ho : Outcome e w d w' r) : Inv w' := by
  cases ho with
  | malformed _ hq => exact h.congr hq.cache hq.mmaps hq.unmapped
  | unimported _ hi => exact h.of_import hi
  | refused _ hi _ ht => exact (h.of_import hi).of_touches ht
  | stale _ hi _ _ _ ht => exact (h.of_import hi).of_touches ht
  | lost _ hi _ _ _ _ ht => exact (h.of_import hi).of_touches ht
  | dropped _ hi _ _ _ _ _ _ ht => exact (h.of_import hi).of_touches ht
  | done _ hi _ _ _ _ _ _ ht => exact (h.of_import hi).of_touches ht

theorem init (h : Init w) : Inv w := by
  obtain ⟨hc, hm, hu, -⟩ := h
  constructor
  · intro key block hk
    rw [hc] at hk
    cases hk
  · intro m hmem
    rw [hu] at hmem
    cases hmem

theorem step {op : ImportOp} (h : Inv w) (hs : step w op = some w') : Inv w' := by
  obtain ⟨e, o⟩ := op
  cases hs
  cases o with
  | none => exact h
  | some d => exact h.of_outcome (fromDescriptor_outcome rfl)

end Inv

section
variable {w w' : World} {e : Env} {d : Message} {r : Except Failure SharedBufferImpl} {impl : SharedBufferImpl}

theorem Reachable.inv (h : Reachable w) : Inv w :=
  Machine.ReachIf.inv (fun _ => Inv.init) (fun _ _ _ h _ hs => h.step hs) h

/-- An imported block has the descriptor's size. -/
theorem ImportOutcome.size {block : SharedBufferImportedBlock} (ho : ImportOutcome e w d w' (.ok block)) :
    block.mappedSize = d.sharedBufferBlockSize ∧ w'.cache d.key = some block := by
  cases ho with
  | found hq hhit =>
    rw [hq.cache]
    exact ⟨hhit.valid.size, hhit.cached⟩
  | cached _ _ _ _ _ hf hc =>
    rw [hc, Function.update_self]
    exact ⟨hf.size, rfl⟩

theorem Outcome.serves (h : Inv w) (ho : Outcome e w d w' (.ok impl)) : Serves w' d impl := by
  have hinv := h.of_outcome ho
  rcases ho with _ | _ | _ | _ | _ | _ | ⟨hd, hi, hm, -, -, -, -, -, ht⟩
  refine ⟨rfl, rfl, rfl, ?_, hd.hasIpcDescriptor⟩
  obtain ⟨hs, hcached⟩ := hi.size
  rw [← ht.cache] at hcached
  obtain ⟨n, hn, hlen, hlive⟩ := hinv.cached hcached
  rw [hm] at hn
  cases hn
  refine ⟨_, _, rfl, hlen, hlive, ?_⟩
  have hoff := hd.offset
  have hsize := hd.size
  rw [hs]
  exact Nat.add_le_of_le_sub' hoff hsize

end

/-- A descriptor of eight bytes, and the answers that let it in. -/
def sample : Message where
  size := 8
  elementTypeName := uint8TypeName
  sharedBufferPid := 17
  sharedBufferBlockId := 0
  sharedBufferBlockSize := 72
  sharedBufferSocketPath := "/tmp/shared_buffer_0_17_0_5.sock"
  ipcUid := 9

def sampleEnv : Env where
  fstat := some 72
  seen := fun _ => { payloadSize := 8, ipcUid := 9 }

theorem init_default : Init {} := ⟨rfl, rfl, rfl, rfl, rfl⟩

end MemfdBuffer.Import
