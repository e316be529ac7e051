import MemfdBuffer.Linux.World
import MemfdBuffer.Broker.Lifetime

/-!
# The life of a pool on Linux

What a process has open and mapped at any time: what other threads have, the memfd and the mapping of each block, and
what the broker has. Every call keeps this account, whichever of its system calls fail, so nothing is left of a pool
that is destroyed. The one exception are the two descriptors of a dispatcher whose thread does not start.
-/

namespace MemfdBuffer

namespace Broker

namespace Holds

variable {s : Broker} {items : List (UInt32 × RegisteredBlock)} {n : Nat}

/-- Someone else closes a number of their own. -/
theorem closeOther (h : Holds s items) (hn : n ∉ s.numbers) (ho : s.table.fds n ≠ none) :
    Holds { s with table := s.table.close n } items := by
  refine ⟨h.table.close n, fun hmem => ?_, fun {m} hm => ?_, h.nodup, h.made, fun {d m} hd hm => ?_, h.sockets, h.paths⟩
  · rcases List.mem_append.1 hmem with hmem | hmem
    · exact h.closes hmem
    · exact ho (List.mem_singleton.1 hmem).symm
  · change m ∈ s.numbers at hm
    show (s.table.close n).fds m ≠ none
    rw [FdTable.fds_close, if_neg]
    · exact h.open_ hm
    · rintro rfl
      exact hn hm
  · change (s.table.close n).fds m = some d at hm
    rw [FdTable.fds_close] at hm
    split at hm
    · cases hm
    · exact h.held hd hm

/-- An entry goes, and the numbers in use are those that remain. -/
theorem removeBlock_lists {item : UInt32 × RegisteredBlock} {l : List Nat} (h : Holds s (item :: items))
    (hl : s.table.Lists (s.numbers ++ l)) :
    ∃ t sockets files, s.removeBlock item = { s with table := t, sockets := sockets, files := files } ∧
      t.Lists ((s.removeBlock item).numbers ++ l) := by
  obtain ⟨key, n, path⟩ := item
  have hkey : n ∈ s.sockets.map Prod.fst := h.sockets.mem_iff.2 (List.mem_cons_self ..)
  obtain ⟨⟨n', k⟩, hmem, hn'⟩ := List.mem_map.1 hkey
  change n' = n at hn'
  subst hn'
  obtain ⟨sockets, hperm, hs'⟩ := removeSocket_eq (nodup_keys (List.nodup_append.1 h.nodup).1) hmem
  have hnum : (s.numbers ++ l).Perm (n' :: k :: (sockets.flatMap (fun item => [item.1, item.2]) ++ s.ownFds ++ l)) :=
    ((hperm.flatMap_right _).append_right _).append_right l
  refine ⟨(s.table.close n').close k, sockets, Function.update s.files path false, ?_, ?_⟩
  · unfold Broker.removeBlock
    rw [hs']
    rfl
  · unfold Broker.removeBlock
    rw [hs']
    exact (hl.perm hnum).close.close

/-- The loop of the destructor. -/
theorem foldl_removeBlock_lists {l : List Nat} (h : Holds s items) (hl : s.table.Lists (s.numbers ++ l)) :
    ∃ t sockets files, items.foldl Broker.removeBlock s = { s with table := t, sockets := sockets, files := files } ∧
      t.Lists ((items.foldl Broker.removeBlock s).numbers ++ l) := by
  induction items generalizing s with
  | nil => exact ⟨s.table, s.sockets, s.files, rfl, hl⟩
  | cons item items ih =>
    obtain ⟨t, sockets, files, he, hl₁⟩ := h.removeBlock_lists hl
    have h₁ := h.removeBlock
    rw [List.foldl_cons]
    rw [he] at h₁ hl₁ ⊢
    exact ih h₁ hl₁

end Holds

variable {s s' : Broker} {l : List Nat}

/-- A dispatcher whose map is empty closes its own two descriptors. -/
theorem stop_lists (hsock : s.sockets = []) (hidle : s.running = false → s.ownFds = [])
    (hl : s.table.Lists (s.numbers ++ l)) :
    s.stop.table.Lists l ∧ s.stop.numbers = [] ∧ s.stop.blocks = s.blocks := by
  have hnumbers : s.numbers = s.ownFds := by
    unfold numbers owned
    rw [hsock]
    rfl
  unfold stop
  split
  · rename_i hrun
    rw [hnumbers, hidle hrun] at hl ⊢
    exact ⟨hl, rfl, rfl⟩
  · rw [hnumbers, ownFds] at hl
    rw [hsock]
    dsimp only [List.foldl_nil]
    cases hev : s.eventFd with
    | none =>
      rw [hev] at hl
      cases hep : s.epollFd with
      | none =>
        rw [hep] at hl
        refine ⟨hl, ?_, rfl⟩
        simp [numbers, owned, ownFds]
      | some m =>
        rw [hep] at hl
        refine ⟨hl.close, ?_, rfl⟩
        simp [numbers, owned, ownFds, closeFd]
    | some n =>
      rw [hev] at hl
      cases hep : s.epollFd with
      | none =>
        rw [hep] at hl
        refine ⟨hl.close, ?_, rfl⟩
        simp [numbers, owned, ownFds, closeFd]
      | some m =>
        rw [hep] at hl
        refine ⟨hl.close.close, ?_, rfl⟩
        simp [numbers, owned, ownFds, closeFd]

/-- The destructor closes what the broker has, and nothing else. -/
theorem destroy_lists {order : List (UInt32 × RegisteredBlock)} (hs : Holds s s.registeredBlocks)
    (hidle : s.running = false → s.ownFds = []) (hl : s.table.Lists (s.numbers ++ l)) (h : s.destroy order = some s') :
    s'.table.Lists l ∧ s'.numbers = [] ∧ s'.blocks = s.blocks ∧ s'.alive = false := by
  unfold destroy at h
  split at h
  · rename_i hperm
    cases h
    have hstart := hs.perm (List.isPerm_iff.1 hperm).symm
    have hend := hstart.foldl_removeBlock
    obtain ⟨t, sockets, files, he, hlists⟩ := hstart.foldl_removeBlock_lists hl
    rw [he] at hend hlists ⊢
    have hsock : sockets = [] := by
      have := hend.sockets
      rw [List.map_nil, List.perm_nil, List.map_eq_nil_iff] at this
      exact this
    obtain ⟨h1, h2, h3⟩ := stop_lists
      (s := { s with table := t, sockets := sockets, files := files, registeredBlocks := [] })
      hsock hidle hlists
    exact ⟨h1, h2, h3, rfl⟩
  · cases h

end Broker

namespace Linux

open Import (Failure)

namespace World

/-- The descriptors of the pool: the memfds of its blocks, and what the broker has. -/
def numbers (w : World) : List Nat := w.broker.blocks.map (·.nativeHandle.toNat) ++ w.broker.numbers

/-- The region of a block with its mapping. -/
def region (item : SharedBufferBlock × Nat) : Region := ⟨item.2, pages item.1.mappedSize⟩

def regions (w : World) : List Region := (w.broker.blocks.zip w.mappings).map region

end World

/-- A block as `create_block` makes it. -/
structure Made (block : SharedBufferBlock) : Prop where
  nativeHandle : 0 ≤ block.nativeHandle
  mappedSize : block.mappedSize = kSharedBufferPayloadOffset + block.payloadSize

structure Inv (w : World) : Prop where
  fds : w.broker.table.Lists (w.numbers ++ w.lost ++ w.others)
  space : w.space.Wf addressLimit
  mapped : w.space.Perm (w.regions ++ w.elsewhere)
  mappings : w.mappings.length = w.broker.blocks.length
  made {block : SharedBufferBlock} : block ∈ w.broker.blocks → Made block
  object {b : Nat} {block : SharedBufferBlock} : w.broker.blocks[b]? = some block →
    w.broker.table.object block.nativeHandle.toNat = some (.memfd b)
  holds : w.broker.alive = true → w.broker.Holds w.broker.registeredBlocks
  /-- A dispatcher that does not run has no descriptors. -/
  idle : w.broker.running = false → w.broker.ownFds = []
  gone : w.broker.alive = false → w.broker.blocks = [] ∧ w.broker.numbers = []

variable {w w' : World} {t t' : FdTable KernelObject} {l : List Nat} {n fd start size payloadSize b : Nat}

/-! ### The platform -/

theorem le_pages (size : Nat) : size ≤ pages size := by
  unfold pages pageSize
  omega

/-- The table as it was, but for a descriptor made and closed again. -/
def Tried (t t' : FdTable KernelObject) : Prop := t' = t ∨ ∃ n x t₁, t.openAt n x = some t₁ ∧ t' = t₁.close n

theorem Tried.fds (h : Tried t t') : t'.fds = t.fds := by
  rcases h with rfl | ⟨n, x, t₁, ho, rfl⟩
  · rfl
  · exact FdTable.close_openAt ho

theorem Tried.lists (h : Tried t t') (hl : t.Lists l) : t'.Lists l := by
  rcases h with rfl | ⟨n, x, t₁, ho, rfl⟩
  · exact hl
  · exact (hl.openAt ho).close

theorem Tried.object {m : Nat} {x : KernelObject} (h : Tried t t') (hw : t.Wf) (ho : t.object m = some x) :
    t'.object m = some x := by
  rcases h with rfl | ⟨n, y, t₁, hopen, rfl⟩
  · exact ho
  · obtain ⟨hm, hobj⟩ := Broker.Blocks.object_added (s := { table := t }) hw ho hopen
    rw [FdTable.object_close hm, hobj]

theorem Tried.holds {s : Broker} {items : List (UInt32 × RegisteredBlock)} (h : Tried s.table t')
    (hs : s.Holds items) : Broker.Holds { s with table := t' } items := by
  rcases h with rfl | ⟨n, x, t₁, ho, rfl⟩
  · exact hs
  · have hopen : t₁.fds n ≠ none := by
      rw [FdTable.fds_openAt ho, if_pos rfl]
      exact Option.some_ne_none _
    exact (hs.openAt (l := s.blocks) ho).closeOther (hs.free_not_mem (FdTable.free_of_openAt ho)) hopen

/-- What `create_platform_mapping` comes to. -/
inductive MapOutcome (w : World) (size : Nat) : World → Except Exn (Nat × Nat) → Prop
  | refused {t' : FdTable KernelObject} {x : Exn} : Tried w.broker.table t' →
    MapOutcome w size (w.withTable t') (.error x)
  | mapped {fd start : Nat} {t : FdTable KernelObject} {space : AddressSpace} : size ≤ offMax →
      w.broker.table.openAt fd (.memfd w.broker.blocks.length) = some t →
      w.space.mmap addressLimit ⟨start, pages size⟩ = some space →
      MapOutcome w size { w.withTable t with space := space } (.ok (fd, start))

theorem createPlatformMapping_outcome {e : CreateEnv} {r : Except Exn (Nat × Nat)}
    (h : w.createPlatformMapping size e = some (w', r)) : MapOutcome w size w' r := by
  unfold World.createPlatformMapping at h
  split at h
  · cases h
    show MapOutcome w size (w.withTable w.broker.table) _
    exact .refused (.inl rfl)
  · rename_i hsize
    split at h
    · cases h
      show MapOutcome w size (w.withTable w.broker.table) _
      exact .refused (.inl rfl)
    · obtain ⟨t, ht, h⟩ := Option.bind_eq_some_iff.1 h
      have htried : Tried w.broker.table (t.close _) := .inr ⟨_, _, t, ht, rfl⟩
      split at h
      · cases h
        exact .refused htried
      · split at h
        · cases h
          exact .refused htried
        · obtain ⟨space, hspace, h⟩ := Option.bind_eq_some_iff.1 h
          cases h
          exact .mapped (Nat.not_lt.1 hsize) ht hspace

theorem destroyPlatformMapping_eq (hstart : 0 < start) (hsize : 0 < size) :
    w.destroyPlatformMapping (fd : Int) start size =
    { w.withTable (w.broker.table.close fd) with space := w.space.munmap ⟨start, pages size⟩ } := by
  have hmap : start ≠ 0 ∧ 0 < size := ⟨Nat.ne_of_gt hstart, hsize⟩
  unfold World.destroyPlatformMapping
  dsimp only
  rw [if_pos hmap, if_pos (Int.natCast_nonneg fd), Int.toNat_natCast]
  rfl

/-! ### `create_block` -/

/-- The block that `create_block` makes over descriptor `fd`. -/
def newBlock (w : World) (payloadSize fd : Nat) : SharedBufferBlock where
  nativeHandle := fd
  mappedSize := kSharedBufferPayloadOffset + payloadSize
  payloadSize := payloadSize
  blockId := w.nextBlockId
  control := { payloadSize := payloadSize }
  payload := List.replicate payloadSize 0

/-- What `create_block` comes to. -/
inductive CreateOutcome (w : World) (payloadSize : Nat) : World → Except Failure Nat → Prop
  | refused {t' : FdTable KernelObject} {next : UInt32} {x : Failure} : Tried w.broker.table t' →
      next = (if payloadSize > sizeMax - kSharedBufferPayloadOffset then w.nextBlockId else w.nextBlockId + 1) →
      CreateOutcome w payloadSize { w.withTable t' with nextBlockId := next } (.error x)
  | created {fd start : Nat} {t : FdTable KernelObject} {space : AddressSpace} :
      kSharedBufferPayloadOffset + payloadSize ≤ offMax →
      w.broker.table.openAt fd (.memfd w.broker.blocks.length) = some t →
      w.space.mmap addressLimit ⟨start, pages (kSharedBufferPayloadOffset + payloadSize)⟩ = some space →
      CreateOutcome w payloadSize
        { w with
          broker := { w.broker with table := t, blocks := w.broker.blocks ++ [newBlock w payloadSize fd] }
          space := space
          mappings := w.mappings ++ [start]
          nextBlockId := w.nextBlockId + 1 } (.ok w.broker.blocks.length)

theorem createBlock_outcome {e : CreateEnv} {r : Except Failure Nat} (hw : w.space.Wf addressLimit)
    (h : w.createBlock payloadSize e = some (w', r)) : CreateOutcome w payloadSize w' r := by
  unfold World.createBlock at h
  split at h
  · rename_i hbig
    cases h
    show CreateOutcome w payloadSize { w.withTable w.broker.table with nextBlockId := w.nextBlockId } _
    exact .refused (.inl rfl) (if_pos hbig).symm
  · rename_i hsmall
    obtain ⟨⟨w₁, mapping⟩, hm, h⟩ := Option.bind_eq_some_iff.1 h
    rcases createPlatformMapping_outcome hm with ⟨htried⟩ | @⟨fd, start, t, space, hsize, ht, hspace⟩
    · cases h
      exact .refused htried (if_neg hsmall).symm
    · dsimp only at h
      split at h
      · -- the block does not get its memory, and the mapping goes again
        cases h
        obtain ⟨⟨hstart, -⟩, -⟩ := AddressSpace.mmap_eq_some.1 hspace
        have hpos : 0 < kSharedBufferPayloadOffset + payloadSize := by
          unfold kSharedBufferPayloadOffset
          omega
        rw [destroyPlatformMapping_eq hstart hpos]
        have hback := hw.munmap_mmap hspace
        have hrefused : CreateOutcome w payloadSize
            { w.withTable (t.close fd) with nextBlockId := w.nextBlockId + 1 } (.error .badAlloc) :=
          .refused (.inr ⟨_, _, _, ht, rfl⟩) (if_neg hsmall).symm
        convert hrefused using 1
        unfold World.withTable
        dsimp only
        rw [hback]
      · cases h
        exact .created hsize ht hspace

/-! ### What each call keeps -/

namespace World

variable {broker : Broker}

theorem ownFds_restored (h : Broker.Restored w.broker broker) : broker.ownFds = w.broker.ownFds := by
  unfold Broker.ownFds
  rw [h.epollFd, h.eventFd]

theorem numbers_restored (h : Broker.Restored w.broker broker) :
    World.numbers { w with broker := broker } = w.numbers := by
  unfold World.numbers Broker.numbers Broker.owned
  dsimp only
  rw [h.blocks, h.sockets, ownFds_restored h]

theorem regions_restored (h : Broker.Restored w.broker broker) :
    World.regions { w with broker := broker } = w.regions := by
  unfold World.regions
  dsimp only
  rw [h.blocks]

end World

namespace Inv

/-- Another table of descriptors, in which those of the blocks are what they were. -/
theorem retable {others lost : List Nat} {next : UInt32} (h : Inv w) (hl : t'.Lists (w.numbers ++ lost ++ others))
    (hobj : ∀ {m : Nat} {x : KernelObject}, m ∈ w.numbers → w.broker.table.object m = some x → t'.object m = some x)
    (hh : w.broker.alive = true → Broker.Holds { w.broker with table := t' } w.broker.registeredBlocks) :
    Inv { w.withTable t' with others := others, lost := lost, nextBlockId := next } where
  fds := hl
  space := h.space
  mapped := h.mapped
  mappings := h.mappings
  made := h.made
  object hb := by
    refine hobj (List.mem_append.2 (.inl (List.mem_map.2 ⟨_, List.mem_of_getElem? hb, rfl⟩))) (h.object hb)
  holds := hh
  idle := h.idle
  gone := h.gone

theorem tried {next : UInt32} (h : Inv w) (ht : Tried w.broker.table t') :
    Inv { w.withTable t' with nextBlockId := next } :=
  h.retable (ht.lists h.fds) (fun _ ho => ht.object h.fds.wf ho) fun halive => ht.holds (h.holds halive)

theorem openOther {x : KernelObject} (h : Inv w) (ht : w.broker.table.openAt n x = some t) :
    Inv { w.withTable t with others := n :: w.others } := by
  refine h.retable ((h.fds.openAt ht).perm List.perm_middle.symm) (fun _ ho => ?_) fun halive => ?_
  · exact (Broker.Blocks.object_added (s := w.broker) h.fds.wf ho ht).2
  · exact (h.holds halive).openAt (l := w.broker.blocks) ht

theorem closeOther (h : Inv w) (hn : n ∈ w.others) :
    Inv { w.withTable (w.broker.table.close n) with others := w.others.erase n } := by
  have hperm : (w.numbers ++ w.lost ++ w.others).Perm (n :: (w.numbers ++ w.lost ++ w.others.erase n)) :=
    ((List.perm_cons_erase hn).append_left _).trans List.perm_middle
  have hl := h.fds.perm hperm
  have hnot : n ∉ w.numbers := fun hmem =>
    (List.nodup_cons.1 hl.nodup).1 (List.mem_append.2 (.inl (List.mem_append.2 (.inl hmem))))
  refine h.retable hl.close (fun {m x} hm ho => ?_) fun halive => ?_
  · rw [FdTable.object_close, ho]
    rintro rfl
    exact hnot hm
  · have hopen := (hl.mem n).2 (List.mem_cons_self ..)
    exact (h.holds halive).closeOther (fun hmem => hnot (List.mem_append.2 (.inr hmem))) hopen

/-- A region of another thread comes or goes. -/
theorem respace {space : AddressSpace} {elsewhere : List Region} (h : Inv w) (hs : space.Wf addressLimit)
    (hp : space.Perm (w.regions ++ elsewhere)) : Inv { w with space := space, elsewhere := elsewhere } :=
  { h with space := hs, mapped := hp }

theorem mapOther {r : Region} {space : AddressSpace} (h : Inv w) (hm : w.space.mmap addressLimit r = some space) :
    Inv { w with space := space, elsewhere := r :: w.elsewhere } := by
  obtain ⟨hs, rfl⟩ := h.space.mmap hm
  exact h.respace hs ((h.mapped.cons r).trans List.perm_middle.symm)

theorem unmapOther {r : Region} (h : Inv w) (hr : r ∈ w.elsewhere) :
    Inv { w with space := w.space.munmap r, elsewhere := w.elsewhere.erase r } := by
  have hperm : w.space.Perm (r :: (w.regions ++ w.elsewhere.erase r)) :=
    h.mapped.trans (((List.perm_cons_erase hr).append_left _).trans List.perm_middle)
  obtain ⟨hs, hp⟩ := h.space.munmap hperm
  exact h.respace hs hp

/-- A new pool, whose dispatcher has the descriptors in `l`. -/
theorem fresh {running : Bool} {epollFd eventFd : Option Nat} (h : Inv w) (halive : w.broker.alive = false)
    (hl : t.Lists (eventFd.toList ++ epollFd.toList ++ w.lost ++ w.others))
    (hrun : running = false → eventFd.toList ++ epollFd.toList = []) : Inv (w.fresh t running epollFd eventFd) := by
  have hregions : w.regions = [] := by
    unfold World.regions
    rw [(h.gone halive).1]
    rfl
  have hmapped := h.mapped
  rw [hregions] at hmapped
  obtain ⟨hown, -⟩ := List.nodup_append.1 (List.nodup_append.1 hl.nodup).1
  refine ⟨hl, h.space, hmapped, rfl, fun hb => (by cases hb), fun hb => (by cases hb), fun _ => ?_, hrun,
    fun hdead => (by cases hdead)⟩
  refine ⟨hl.wf, hl.hit, fun {m} hm => ?_, hown, fun hd => (by cases hd), fun hd => (by cases hd), .nil,
    fun hp => (by cases hp)⟩
  exact (hl.mem m).2 (List.mem_append.2 (.inl (List.mem_append.2 (.inl hm))))

theorem construct {e : StartEnv} {r : Except Failure Unit} (h : Inv w) (halive : w.broker.alive = false)
    (hc : w.construct e = some (w', r)) : Inv w' := by
  have hnumbers : w.numbers = [] := by
    unfold World.numbers
    rw [(h.gone halive).1, (h.gone halive).2]
    rfl
  have hfds := h.fds
  rw [hnumbers, List.nil_append] at hfds
  unfold World.construct at hc
  split at hc
  · cases hc
    exact h
  · split at hc
    · cases hc
      exact h.fresh halive hfds fun _ => rfl
    · rename_i epollFd _
      obtain ⟨t₁, ht₁, hc⟩ := Option.bind_eq_some_iff.1 hc
      have hl₁ := hfds.openAt ht₁
      split at hc
      · cases hc
        exact h.fresh halive hl₁.close fun _ => rfl
      · rename_i eventFd _
        obtain ⟨t₂, ht₂, hc⟩ := Option.bind_eq_some_iff.1 hc
        have hl₂ := hl₁.openAt ht₂
        split at hc
        · cases hc
          exact h.fresh halive hl₂.close.close fun _ => rfl
        · split at hc
          · -- the thread does not start
            cases hc
            show Inv { w.withTable t₂ with
              lost := eventFd :: epollFd :: w.lost, others := w.others, nextBlockId := w.nextBlockId }
            refine h.retable ?_ ?_ ?_
            · rw [hnumbers]
              exact hl₂
            · intro m x hm
              rw [hnumbers] at hm
              cases hm
            · intro hup
              rw [halive] at hup
              cases hup
          · cases hc
            exact h.fresh halive hl₂ fun hrun => (by cases hrun)

theorem created {space : AddressSpace} (h : Inv w) (halive : w.broker.alive = true)
    (ht : w.broker.table.openAt fd (.memfd w.broker.blocks.length) = some t)
    (hm : w.space.mmap addressLimit ⟨start, pages (kSharedBufferPayloadOffset + payloadSize)⟩ = some space) :
    Inv { w with
      broker := { w.broker with table := t, blocks := w.broker.blocks ++ [newBlock w payloadSize fd] }
      space := space
      mappings := w.mappings ++ [start]
      nextBlockId := w.nextBlockId + 1 } := by
  obtain ⟨hs, rfl⟩ := h.space.mmap hm
  have hregions : ((w.broker.blocks ++ [newBlock w payloadSize fd]).zip (w.mappings ++ [start])).map World.region =
      w.regions ++ [⟨start, pages (kSharedBufferPayloadOffset + payloadSize)⟩] := by
    rw [List.zip_append h.mappings.symm, List.map_append]
    rfl
  refine ⟨?_, hs, ?_, ?_, fun hb => ?_, fun {b block} hb => ?_, fun _ => (h.holds halive).openAt ht, h.idle,
    fun hdead => ?_⟩
  · refine (h.fds.openAt ht).perm ?_
    show List.Perm (fd :: (w.numbers ++ w.lost ++ w.others))
      ((w.broker.blocks ++ [newBlock w payloadSize fd]).map (·.nativeHandle.toNat) ++ w.broker.numbers ++
        w.lost ++ w.others)
    have hnew : (newBlock w payloadSize fd).nativeHandle.toNat = fd := Int.toNat_natCast fd
    rw [List.map_append, List.map_singleton, hnew, World.numbers]
    simp only [List.append_assoc, List.singleton_append]
    exact List.perm_middle.symm
  · show List.Perm _ (((w.broker.blocks ++ [newBlock w payloadSize fd]).zip
      (w.mappings ++ [start])).map World.region ++ _)
    rw [hregions, List.append_assoc]
    exact (h.mapped.cons _).trans List.perm_middle.symm
  · show (w.mappings ++ [start]).length = (w.broker.blocks ++ [_]).length
    rw [List.length_append, List.length_append, h.mappings]
    rfl
  · rcases List.mem_append.1 hb with hb | hb
    · exact h.made hb
    · rw [List.mem_singleton.1 hb]
      exact ⟨Int.natCast_nonneg fd, rfl⟩
  · rcases Tally.get_append_cases hb with hb | ⟨rfl, rfl⟩
    · exact (Broker.Blocks.object_added (s := w.broker) h.fds.wf (h.object hb) ht).2
    · exact FdTable.object_openAt_self ht
  · change w.broker.alive = false at hdead
    rw [halive] at hdead
    cases hdead

theorem createBlock {e : CreateEnv} {r : Except Failure Nat} (h : Inv w) (halive : w.broker.alive = true)
    (hc : w.createBlock payloadSize e = some (w', r)) : Inv w' := by
  rcases createBlock_outcome h.space hc with ⟨htried, -⟩ | ⟨-, ht, hm⟩
  · exact h.tried htried
  · exact h.created halive ht hm

/-- What a registration leaves alone in the blocks. -/
theorem map_registered {α : Type} {blocks : List SharedBufferBlock} {block : SharedBufferBlock} (path : String)
    (f : SharedBufferBlock → α) (hf : f { block with socketPath := path } = f block) (hb : blocks[b]? = some block) :
    (blocks.set b { block with socketPath := path }).map f = blocks.map f := by
  obtain ⟨hlt, rfl⟩ := List.getElem?_eq_some_iff.1 hb
  rw [List.map_set, hf, ← List.getElem_map f (h := by rw [List.length_map]; exact hlt), List.set_getElem_self]

theorem regions_eq : w.regions =
    List.zipWith (fun size start => (⟨start, pages size⟩ : Region))
      (w.broker.blocks.map (·.mappedSize)) w.mappings := by
  unfold World.regions
  rw [List.zipWith_map_left, List.zip, List.map_zipWith]
  rfl

theorem added {block : SharedBufferBlock} {k : Nat} {t₁ : FdTable KernelObject} {x : KernelObject} (h : Inv w)
    (halive : w.broker.alive = true) (hb : w.broker.blocks[b]? = some block)
    (ht₁ : w.broker.table.openAt n (.listener (w.broker.pathOf block)) = some t₁) (ht : t₁.openAt k x = some t) :
    Inv { w with broker := w.broker.added b block n k t } := by
  have hmap := fun {α : Type} (f : SharedBufferBlock → α) hf =>
    map_registered (w.broker.pathOf block) f hf hb
  refine ⟨?_, h.space, ?_, ?_, fun hmem => ?_, fun {c other} hc => ?_, fun _ => (h.holds halive).added ht₁ ht, h.idle,
    fun hdead => ?_⟩
  · refine ((h.fds.openAt ht₁).openAt ht).perm ?_
    show List.Perm (k :: n :: (w.numbers ++ w.lost ++ w.others))
      ((w.broker.blocks.set b { block with socketPath := w.broker.pathOf block }).map (·.nativeHandle.toNat) ++
        (n :: k :: w.broker.numbers) ++ w.lost ++ w.others)
    rw [hmap _ rfl, World.numbers]
    simp only [List.append_assoc, List.cons_append]
    refine (List.Perm.swap ..).trans ?_
    exact (List.perm_middle.trans (.cons n List.perm_middle)).symm
  · have hregions : World.regions { w with broker := w.broker.added b block n k t } = w.regions := by
      rw [regions_eq, regions_eq]
      show List.zipWith _ ((w.broker.blocks.set b { block with socketPath := w.broker.pathOf block }).map _) _ = _
      rw [hmap _ rfl]
    rw [hregions]
    exact h.mapped
  · show w.mappings.length = (w.broker.blocks.set b _).length
    rw [List.length_set, h.mappings]
  · rcases List.mem_or_eq_of_mem_set hmem with hmem | rfl
    · exact h.made hmem
    · obtain ⟨h1, h2⟩ := h.made (List.mem_of_getElem? hb)
      exact ⟨h1, h2⟩
  · obtain ⟨old, hold, hhandle⟩ : ∃ old, w.broker.blocks[c]? = some old ∧ other.nativeHandle = old.nativeHandle := by
      rcases Tally.get_set_cases hc with hc | ⟨rfl, rfl⟩
      · exact ⟨other, hc, rfl⟩
      · exact ⟨block, hb, rfl⟩
    have hobj₁ := (Broker.Blocks.object_added (s := w.broker) h.fds.wf (h.object hold) ht₁).2
    rw [hhandle]
    exact (Broker.Blocks.object_added (s := { table := t₁ }) (h.fds.openAt ht₁).wf hobj₁ ht).2
  · change w.broker.alive = false at hdead
    rw [halive] at hdead
    cases hdead

/-- A registration that is undone. -/
theorem restored {broker : Broker} {path : String} (h : Inv w) (halive : w.broker.alive = true)
    (hrest : Broker.Restored w.broker broker) (hpath : broker.files path = false)
    (hfiles : ∀ q, q ≠ path → broker.files q = w.broker.files q) : Inv { w with broker := broker } := by
  refine ⟨?_, h.space, ?_, ?_, fun hmem => ?_, fun {c other} hc => ?_, fun _ => ?_, fun hrun => ?_, fun hdead => ?_⟩
  · rw [World.numbers_restored hrest]
    exact h.fds.of_fds hrest.fds (hrest.table h.fds.wf) (hrest.closes h.fds.hit)
  · rw [World.regions_restored hrest]
    exact h.mapped
  · dsimp only
    rw [hrest.blocks]
    exact h.mappings
  · dsimp only at hmem
    rw [hrest.blocks] at hmem
    exact h.made hmem
  · dsimp only at hc ⊢
    rw [hrest.blocks] at hc
    have hobj := h.object hc
    obtain ⟨d, hd, -⟩ := Option.bind_eq_some_iff.1 hobj
    rw [FdTable.object_of_fds hd (h.fds.wf.bound hd) (by rw [hrest.fds, hd]) hrest.descs]
    exact hobj
  · dsimp only
    rw [hrest.registeredBlocks]
    exact (h.holds halive).restored hrest hpath hfiles
  · dsimp only at hrun ⊢
    rw [hrest.running] at hrun
    rw [World.ownFds_restored hrest]
    exact h.idle hrun
  · dsimp only at hdead
    rw [hrest.alive, halive] at hdead
    cases hdead

theorem registerBlock {e : RegisterEnv} {r : Except Exn String} (h : Inv w) (halive : w.broker.alive = true)
    (hr : w.registerBlock e b = some (w', r)) : Inv w' := by
  obtain ⟨⟨broker, r'⟩, hr, hw'⟩ := Option.map_eq_some_iff.1 hr
  cases hw'
  obtain ⟨block, hb, -⟩ := Option.bind_eq_some_iff.1 hr
  rcases Broker.registerBlock_outcome (h.holds halive) hb hr with - | - | ⟨-, hrest, hpath, hfiles⟩ | ⟨-, -, ht₁, -, ht⟩
  · exact h
  · exact h
  · exact h.restored halive hrest hpath hfiles
  · exact h.added halive hb ht₁ ht

/-- The loop of `~SharedBufferMemoryPool`. -/
theorem foldl_destroyBlock {items : List (SharedBufferBlock × Nat)} {l : List Nat} {l' : List Region}
    (hmade : ∀ item ∈ items, Made item.1)
    (hl : w.broker.table.Lists (items.map (·.1.nativeHandle.toNat) ++ l)) (hs : w.space.Wf addressLimit)
    (hp : w.space.Perm (items.map World.region ++ l')) :
    ∃ t space, items.foldl World.destroyBlock w = { w.withTable t with space := space } ∧ t.Lists l ∧
      space.Wf addressLimit ∧ space.Perm l' := by
  induction items generalizing w with
  | nil => exact ⟨w.broker.table, w.space, rfl, hl, hs, hp⟩
  | cons item items ih =>
    obtain ⟨block, start⟩ := item
    have hblock := hmade _ (List.mem_cons_self ..)
    have hstart := (hs.bounds (hp.mem_iff.2 (List.mem_cons_self ..))).1
    obtain ⟨fd, hfd⟩ := Int.eq_ofNat_of_zero_le hblock.nativeHandle
    have hsize : 0 < block.mappedSize := by
      rw [hblock.mappedSize, kSharedBufferPayloadOffset]
      omega
    have hone : w.destroyBlock (block, start) =
        { w.withTable (w.broker.table.close fd) with space := w.space.munmap ⟨start, pages block.mappedSize⟩ } := by
      unfold World.destroyBlock
      dsimp only
      rw [hfd]
      exact destroyPlatformMapping_eq hstart hsize
    obtain ⟨hs₁, hp₁⟩ := hs.munmap hp
    have hl₁ : (w.broker.table.close fd).Lists (items.map (·.1.nativeHandle.toNat) ++ l) := by
      rw [List.map_cons, hfd] at hl
      exact hl.close
    rw [List.foldl_cons, hone]
    exact ih (fun item hitem => hmade item (List.mem_cons_of_mem _ hitem)) hl₁ hs₁ hp₁

theorem destroy {order : List (UInt32 × RegisteredBlock)} (h : Inv w) (halive : w.broker.alive = true)
    (hd : w.destroy order = some w') : Inv w' ∧ w'.broker.alive = false := by
  obtain ⟨broker, hb, rfl⟩ := Option.map_eq_some_iff.1 hd
  have hperm : (w.numbers ++ w.lost ++ w.others).Perm
      (w.broker.numbers ++ (w.broker.blocks.map (·.nativeHandle.toNat) ++ (w.lost ++ w.others))) := by
    unfold World.numbers
    simp only [List.append_assoc]
    exact List.perm_append_comm_assoc ..
  obtain ⟨hl, hnumbers, hblocks, hdead⟩ := Broker.destroy_lists (h.holds halive) h.idle (h.fds.perm hperm) hb
  have hzip : (w.broker.blocks.zip w.mappings).map (fun item => item.1.nativeHandle.toNat) =
      w.broker.blocks.map (·.nativeHandle.toNat) := by
    have hfst : (w.broker.blocks.zip w.mappings).map Prod.fst = w.broker.blocks := List.map_fst_zip h.mappings.ge
    calc (w.broker.blocks.zip w.mappings).map (fun item => item.1.nativeHandle.toNat)
        = ((w.broker.blocks.zip w.mappings).map Prod.fst).map (·.nativeHandle.toNat) := by
          rw [List.map_map]
          rfl
      _ = w.broker.blocks.map (·.nativeHandle.toNat) := by rw [hfst]
  rw [← hzip] at hl
  obtain ⟨t, space, he, hl', hs', hp'⟩ := foldl_destroyBlock (w := { w with broker := broker })
    (fun item hitem => h.made (List.of_mem_zip hitem).1) hl h.space h.mapped
  rw [← hblocks] at he
  dsimp only
  rw [he]
  refine ⟨⟨?_, hs', hp', rfl, fun hb => (by cases hb), fun hb => (by cases hb), fun hup => ?_, fun _ => ?_,
    fun _ => ⟨rfl, hnumbers⟩⟩, hdead⟩
  · show t.Lists (broker.numbers ++ w.lost ++ w.others)
    rw [hnumbers]
    exact hl'
  · change broker.alive = true at hup
    rw [hdead] at hup
    cases hup
  · exact (List.append_eq_nil_iff.1 hnumbers).2

theorem init (h : Init w) : Inv w := by
  have hblocks : w.broker.blocks = [] := by rw [h.broker]
  have hnumbers : w.broker.numbers = [] := by
    rw [h.broker]
    rfl
  refine ⟨?_, h.space, ?_, ?_, fun hb => ?_, fun hb => ?_, fun hup => ?_, fun _ => ?_, fun _ => ⟨hblocks, hnumbers⟩⟩
  · rw [World.numbers, hblocks, hnumbers, h.lost]
    exact h.others
  · rw [World.regions, hblocks, h.elsewhere]
    exact .refl _
  · rw [h.mappings, hblocks]
    rfl
  · rw [hblocks] at hb
    cases hb
  · rw [hblocks] at hb
    cases hb
  · rw [h.broker] at hup
    cases hup
  · exact (List.append_eq_nil_iff.1 hnumbers).2

theorem step {op : Op} (h : Inv w) (hst : step w op = some w') : Inv w' := by
  cases op with
  | construct e =>
    simp only [Linux.step] at hst
    split at hst
    · cases hst
    · rename_i halive
      obtain ⟨⟨w₁, r⟩, hc, rfl⟩ := Option.map_eq_some_iff.1 hst
      exact h.construct (Bool.eq_false_iff.2 halive) hc
  | createBlock payloadSize e =>
    simp only [Linux.step] at hst
    split at hst
    · rename_i halive
      obtain ⟨⟨w₁, r⟩, hc, rfl⟩ := Option.map_eq_some_iff.1 hst
      exact h.createBlock halive hc
    · cases hst
  | registerBlock e b =>
    simp only [Linux.step] at hst
    split at hst
    · rename_i halive
      obtain ⟨⟨w₁, r⟩, hr, rfl⟩ := Option.map_eq_some_iff.1 hst
      exact h.registerBlock halive hr
    · cases hst
  | destroy order =>
    simp only [Linux.step] at hst
    split at hst
    · rename_i halive
      exact (h.destroy halive hst).1
    · cases hst
  | openOther n x =>
    obtain ⟨t, ht, rfl⟩ := Option.map_eq_some_iff.1 hst
    exact h.openOther ht
  | closeOther n =>
    simp only [Linux.step] at hst
    split at hst
    · rename_i hn
      cases hst
      exact h.closeOther hn
    · cases hst
  | mapOther r =>
    obtain ⟨space, hm, rfl⟩ := Option.map_eq_some_iff.1 hst
    exact h.mapOther hm
  | unmapOther r =>
    simp only [Linux.step] at hst
    split at hst
    · rename_i hr
      cases hst
      exact h.unmapOther hr
    · cases hst

end Inv

theorem Reachable.inv (h : Reachable w) : Inv w :=
  Machine.ReachIf.inv (fun _ => Inv.init) (fun _ _ _ hs _ hst => hs.step hst) h

/-! ### The account -/

/-- What a process has open and mapped. -/
structure Holdings (w : World) : Prop where
  /-- These numbers are in use and no others, and no close has missed. -/
  fds : w.broker.table.Lists (w.numbers ++ w.lost ++ w.others)
  mapped : w.space.Perm (w.regions ++ w.elsewhere)
  apart : w.space.Pairwise Region.Apart
  mappings : w.mappings.length = w.broker.blocks.length
  object {b : Nat} {block : SharedBufferBlock} : w.broker.blocks[b]? = some block →
    w.broker.table.object block.nativeHandle.toNat = some (.memfd b)
  sockets : w.broker.alive = true →
    (w.broker.sockets.map Prod.fst).Perm (w.broker.registeredBlocks.map (·.2.serverSocket))
  gone : w.broker.alive = false → w.numbers = [] ∧ w.regions = []

/-- Everything is open and mapped as before, and to the same ends. -/
structure Undone (w w' : World) : Prop where
  fds : w'.broker.table.fds = w.broker.table.fds
  space : w'.space = w.space
  numbers : w'.numbers = w.numbers
  regions : w'.regions = w.regions
  lost : w'.lost = w.lost

theorem createBlock_undone {e : CreateEnv} {x : Failure} (h : Inv w)
    (hc : w.createBlock payloadSize e = some (w', .error x)) :
    Undone w w' := by
  rcases createBlock_outcome h.space hc with ⟨htried, -⟩ | -
  exact ⟨htried.fds, rfl, rfl, rfl, rfl⟩

theorem registerBlock_undone {e : RegisterEnv} {x : Exn} (h : Inv w) (halive : w.broker.alive = true)
    (hr : w.registerBlock e b = some (w', .error x)) : Undone w w' := by
  obtain ⟨⟨broker, r'⟩, hr, hw'⟩ := Option.map_eq_some_iff.1 hr
  cases hw'
  obtain ⟨block, hb, -⟩ := Option.bind_eq_some_iff.1 hr
  rcases Broker.registerBlock_outcome (h.holds halive) hb hr with - | - | ⟨-, hrest, -, -⟩ | -
  exact ⟨hrest.fds, rfl, World.numbers_restored hrest, World.regions_restored hrest, rfl⟩

theorem construct_undone {e : StartEnv} {x : Failure} (hc : w.construct e = some (w', .error x)) :
    Undone w w' ∨ e.thread = false ∧ ∃ eventFd epollFd, w'.lost = eventFd :: epollFd :: w.lost := by
  unfold World.construct at hc
  split at hc
  · cases hc
    exact .inl ⟨rfl, rfl, rfl, rfl, rfl⟩
  · split at hc
    · cases hc
    · obtain ⟨t₁, -, hc⟩ := Option.bind_eq_some_iff.1 hc
      split at hc
      · cases hc
      · obtain ⟨t₂, -, hc⟩ := Option.bind_eq_some_iff.1 hc
        split at hc
        · cases hc
        · split at hc
          · rename_i hthread
            cases hc
            exact .inr ⟨hthread, _, _, rfl⟩
          · cases hc

/-- A process has open and mapped what its pool needs, and gets rid of it with the pool. -/
theorem holdings (h : Reachable w) : Holdings w ∧
    (∀ payloadSize e w' x, w.createBlock payloadSize e = some (w', .error x) → Undone w w') ∧
    (∀ e b w' x, w.broker.alive = true → w.registerBlock e b = some (w', .error x) → Undone w w') ∧
    ∀ e w' x, w.construct e = some (w', .error x) →
      Undone w w' ∨ e.thread = false ∧ ∃ eventFd epollFd, w'.lost = eventFd :: epollFd :: w.lost := by
  have hinv := h.inv
  refine ⟨⟨hinv.fds, hinv.mapped, hinv.space.apart, hinv.mappings, hinv.object,
    fun halive => (hinv.holds halive).sockets,
    fun hdead => ?_⟩, fun _ _ _ _ => createBlock_undone hinv, fun _ _ _ _ halive => registerBlock_undone hinv halive,
    fun _ _ _ => construct_undone⟩
  obtain ⟨hblocks, hnumbers⟩ := hinv.gone hdead
  unfold World.numbers World.regions
  rw [hblocks, hnumbers]
  exact ⟨rfl, rfl⟩

/-- A process whose standard streams are open. -/
def started : World where
  broker := {
    alive := false
    table := { fds := fun n => if n < 3 then some n else none, descs := [.event, .event, .event] } }
  others := [0, 1, 2]

/-- Two dispatchers fail, at their thread and at memory; then a pool has one block, fails to make a second one, publishes
the first and goes. -/
def lifetime : List Op :=
  [.construct { epollCreate := some 3, eventfd := some 4, thread := false }, .construct { memory := false },
    .construct { epollCreate := some 5, eventfd := some 6 },
    .createBlock 8 { memfdCreate := some 7, mmap := some 4096 },
    .createBlock 16 { memfdCreate := some 8, mmap := some 8192, block := false },
    .registerBlock { socket := some 8, dup := some 9 } 0]

theorem started_init : Init started := by
  refine ⟨⟨⟨fun {n d} h => ?_, fun {n m d} hn hm => ?_, fun {n d} h => (by cases h), fun {d} h => (by cases h),
    fun d => Nat.zero_le 1, fun {d} h => .inl ⟨d, if_pos h⟩⟩, (fun h => by cases h), by decide, fun n => ?_⟩, rfl,
    ⟨.nil, fun h => (by cases h)⟩, rfl, rfl, rfl⟩
  · simp only [started] at h ⊢
    split at h
    · cases h
      assumption
    · cases h
  · simp only [started] at hn hm
    split at hn
    · split at hm
      · cases hn
        cases hm
        rfl
      · cases hm
    · cases hn
  · simp only [started]
    split
    · simp
      omega
    · simp
      omega

/-- The state after `lifetime`, and after the destructor. -/
theorem holdings_lifetime : ∃ w w', Reachable w ∧ Linux.step w (.destroy w.broker.registeredBlocks) = some w' ∧
    w.numbers = [7, 8, 9, 6, 5] ∧ w.regions = [⟨4096, 4096⟩] ∧ w.lost = [4, 3] ∧ Holdings w ∧
      w'.broker.alive = false ∧ w'.lost = [4, 3] ∧ Holdings w' := by
  have hrun : ((Machine.run step started lifetime).bind fun w =>
      (Linux.step w (.destroy w.broker.registeredBlocks)).map fun w' =>
        (w.numbers, w.regions, w.lost, w'.broker.alive, w'.lost)) =
      some ([7, 8, 9, 6, 5], [⟨4096, 4096⟩], [4, 3], false, [4, 3]) := by decide
  obtain ⟨w, hw, hd⟩ := Option.bind_eq_some_iff.1 hrun
  obtain ⟨w', hw', he⟩ := Option.map_eq_some_iff.1 hd
  have hreach : Reachable w := Machine.Reach.run (.start started_init) hw
  simp only [Prod.mk.injEq] at he
  obtain ⟨h1, h2, h3, h4, h5⟩ := he
  exact ⟨w, w', hreach, hw', h1, h2, h3, (holdings hreach).1, h4, h5, (holdings (.next hreach trivial hw')).1⟩

end Linux

end MemfdBuffer
