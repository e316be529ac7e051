import MemfdBuffer.Broker.Registry
import MemfdBuffer.Lib.Tally
import Mathlib.Data.List.Perm.Basic

/-!
# The life of the broker's descriptors

`register_block` either restores what it has touched or adds one entry, one listening socket and one
duplicate; the destructor goes through the entries and closes both descriptors of each. The invariant ties
the dispatcher's map to the registry and says that a descriptor of the broker's making is open only under
the numbers in that map.
-/

namespace MemfdBuffer.Broker

/-- The numbers in the dispatcher's map. -/
def owned (s : Broker) : List Nat := s.sockets.flatMap fun item => [item.1, item.2]

/-- All numbers that the broker will close. -/
def numbers (s : Broker) : List Nat := s.owned ++ s.ownFds

/-- `items` are the entries whose sockets are still in the dispatcher's map. -/
structure Holds (s : Broker) (items : List (UInt32 × RegisteredBlock)) : Prop where
  table : s.table.Wf
  closes : none ∉ s.table.closes
  open_ {n : Nat} : n ∈ s.numbers → s.table.fds n ≠ none
  nodup : s.numbers.Nodup
  made {d : Nat} : d ∈ s.made → d < s.table.descs.length
  held {d n : Nat} : d ∈ s.made → s.table.fds n = some d → n ∈ s.owned
  sockets : (s.sockets.map Prod.fst).Perm (items.map (·.2.serverSocket))
  paths {p : String} : p ∈ s.registeredPaths → s.files p = true → ∃ item ∈ items, item.2.socketPath = p

/-- The blocks of the pool and their entries. -/
structure Blocks (s : Broker) : Prop where
  ids : (s.blocks.map (·.blockId)).Nodup
  handles {b : Nat} {block : SharedBufferBlock} : s.blocks[b]? = some block →
    0 ≤ block.nativeHandle ∧ s.table.object block.nativeHandle.toNat = some (.memfd b) ∧
      block.nativeHandle.toNat ∉ s.numbers
  entries {id : UInt32} {item : RegisteredBlock} : (id, item) ∈ s.registeredBlocks →
    ∃ (b : Nat) (block : SharedBufferBlock), s.blocks[b]? = some block ∧ block.blockId = id ∧
      item.socketPath = s.pathOf block

structure Inv (s : Broker) : Prop where
  holds : s.alive = true → Holds s s.registeredBlocks
  blocks : s.alive = true → Blocks s

/-- Everything is as it was, but for descriptors made and closed again and for socket files. -/
structure Restored (s s' : Broker) : Prop where
  fds : s'.table.fds = s.table.fds
  table : s.table.Wf → s'.table.Wf
  closes : none ∉ s.table.closes → none ∉ s'.table.closes
  descs : s.table.descs <+: s'.table.descs
  made {d : Nat} : d ∈ s'.made → d ∈ s.made ∨ s.table.descs.length ≤ d ∧ d < s'.table.descs.length
  euid : s'.euid = s.euid
  pid : s'.pid = s.pid
  blocks : s'.blocks = s.blocks
  registeredBlocks : s'.registeredBlocks = s.registeredBlocks
  sockets : s'.sockets = s.sockets
  running : s'.running = s.running
  epollFd : s'.epollFd = s.epollFd
  eventFd : s'.eventFd = s.eventFd
  alive : s'.alive = s.alive
  registeredPaths : s'.registeredPaths = s.registeredPaths

section
variable {s s₁ s₂ s' : Broker} {e : RegisterEnv} {n m b d : Nat} {x : KernelObject} {path p : String}
  {block : SharedBufferBlock} {items : List (UInt32 × RegisteredBlock)} {item : UInt32 × RegisteredBlock}

/-! ### Opening and closing -/

theorem openFd_eq_some : s.openFd n x = some s' ↔
    ∃ t, s.table.openAt n x = some t ∧ s' = { s with table := t, made := s.made ++ [s.table.descs.length] } := by
  unfold openFd
  rw [Option.map_eq_some_iff]
  constructor
  · rintro ⟨t, ht, rfl⟩
    exact ⟨t, ht, rfl⟩
  · rintro ⟨t, ht, rfl⟩
    exact ⟨t, ht, rfl⟩

theorem Restored.refl (s : Broker) : Restored s s :=
  ⟨rfl, id, id, List.prefix_refl _, .inl, rfl, rfl, rfl, rfl, rfl, rfl, rfl, rfl, rfl, rfl⟩

/-- Socket files do not count. -/
theorem Restored.files (h : Restored s s') (f : String → Bool) : Restored s { s' with files := f } :=
  ⟨h.fds, h.table, h.closes, h.descs, h.made, h.euid, h.pid, h.blocks, h.registeredBlocks, h.sockets, h.running,
    h.epollFd, h.eventFd, h.alive, h.registeredPaths⟩

theorem Restored.of_files {f : String → Bool} (h : Restored { s with files := f } s') : Restored s s' :=
  ⟨h.fds, h.table, h.closes, h.descs, h.made, h.euid, h.pid, h.blocks, h.registeredBlocks, h.sockets, h.running,
    h.epollFd, h.eventFd, h.alive, h.registeredPaths⟩

/-- What was opened first is closed last. -/
theorem Restored.close (ho : s.openFd n x = some s₁) (h : Restored s₁ s₂) : Restored s (s₂.closeFd n) := by
  obtain ⟨t, ht, rfl⟩ := openFd_eq_some.1 ho
  have hfds : (s₂.table.close n).fds = s.table.fds := by
    rw [← FdTable.close_openAt ht]
    funext k
    rw [FdTable.fds_close, FdTable.fds_close, h.fds]
  have hopen : s₂.table.fds n = some s.table.descs.length := by
    rw [h.fds]
    show t.fds n = _
    rw [FdTable.fds_openAt ht, if_pos rfl]
  have hdescs := FdTable.descs_openAt ht
  have hpre : s.table.descs <+: t.descs := by
    rw [hdescs]
    exact List.prefix_append ..
  have hlen : t.descs.length = s.table.descs.length + 1 := by rw [hdescs, List.length_append]; rfl
  have hle := h.descs.length_le
  have hcl : t.closes = s.table.closes := by
    obtain ⟨-, rfl⟩ := FdTable.openAt_eq_some.1 ht
    rfl
  refine ⟨hfds, fun hw => (h.table (hw.openAt ht)).close n, fun hc hmem => ?_, hpre.trans h.descs, fun {d} hd => ?_,
    h.euid, h.pid, h.blocks, h.registeredBlocks, h.sockets, h.running, h.epollFd, h.eventFd, h.alive, h.registeredPaths⟩
  · rcases List.mem_append.1 hmem with hmem | hmem
    · refine h.closes ?_ hmem
      show none ∉ t.closes
      rw [hcl]
      exact hc
    · rw [hopen] at hmem
      cases List.mem_singleton.1 hmem
  · show d ∈ s.made ∨ s.table.descs.length ≤ d ∧ d < s₂.table.descs.length
    rcases h.made hd with hd | ⟨h1, h2⟩
    · rcases List.mem_append.1 hd with hd | hd
      · exact .inl hd
      · rw [List.mem_singleton.1 hd]
        change t.descs.length ≤ _ at hle
        exact .inr ⟨Nat.le_refl _, by omega⟩
    · change t.descs.length ≤ d at h1
      exact .inr ⟨by omega, h2⟩

/-! ### The calls below `register_block` -/

/-- `create_fd_server_socket` hands out a listening socket with its file, or leaves nothing. -/
theorem createFdServerSocket_cases {o : Option Nat} (h : s.createFdServerSocket e path = some (s', o)) :
    (o = none ∧ Restored s s' ∧ ∀ q, q ≠ path → s'.files q = s.files q) ∨
      ∃ n t, o = some n ∧ s.table.openAt n (.listener path) = some t ∧
        s' = { s with
          table := t
          made := s.made ++ [s.table.descs.length]
          files := Function.update (s.unlink path).files path true } := by
  unfold createFdServerSocket at h
  split at h
  · cases h
    exact .inl ⟨rfl, .refl s, fun _ _ => rfl⟩
  · split at h
    · cases h
      exact .inl ⟨rfl, .refl s, fun _ _ => rfl⟩
    · rename_i socket _
      obtain ⟨s₁, ho, h⟩ := Option.bind_eq_some_iff.1 h
      have hfiles : s₁.files = s.files := by
        obtain ⟨t, -, rfl⟩ := openFd_eq_some.1 ho
        rfl
      split at h
      · cases h
        refine .inl ⟨rfl, (Restored.close ho ((Restored.refl s₁).files _)).files _, fun q hq => ?_⟩
        show Function.update (Function.update s₁.files path false) path false q = _
        rw [Function.update_of_ne hq, Function.update_of_ne hq, hfiles]
      · split at h
        · cases h
          refine .inl ⟨rfl, (Restored.close ho ((Restored.refl s₁).files _)).files _, fun q hq => ?_⟩
          show Function.update (Function.update (Function.update s₁.files path false) path true) path false q = _
          rw [Function.update_of_ne hq, Function.update_of_ne hq, Function.update_of_ne hq, hfiles]
        · cases h
          obtain ⟨t, ht, rfl⟩ := openFd_eq_some.1 ho
          exact .inr ⟨socket, t, rfl, ht, rfl⟩

/-- `add_socket` puts a duplicate beside the socket, or leaves nothing. -/
theorem addSocket_cases {r : Bool} (hkey : ∀ item ∈ s.sockets, item.1 ≠ n)
    (h : s.addSocket e n m = some (s', r)) :
    (r = false ∧ Restored s s' ∧ s'.files = s.files) ∨
      ∃ k x t, r = true ∧ s.table.object m = some x ∧ s.table.openAt k x = some t ∧
        s' = { s with table := t, made := s.made ++ [s.table.descs.length], sockets := (n, k) :: s.sockets } := by
  have herase : s.sockets.filter (fun item => decide (item.1 ≠ n)) = s.sockets := by
    rw [List.filter_eq_self]
    intro item hitem
    exact decide_eq_true (hkey item hitem)
  unfold addSocket at h
  split at h
  · cases h
    exact .inl ⟨rfl, .refl s, rfl⟩
  · split at h
    · rename_i k x hk hx
      obtain ⟨s₁, ho, h⟩ := Option.bind_eq_some_iff.1 h
      have ho' := ho
      obtain ⟨t, ht, rfl⟩ := openFd_eq_some.1 ho
      unfold eraseSocket at h
      dsimp only at h
      rw [herase] at h
      split at h
      · cases h
        refine .inl ⟨rfl, ?_, rfl⟩
        have hs : ((n, k) :: s.sockets).filter (fun item => decide (item.1 ≠ n)) = s.sockets := by
          rw [List.filter_cons_of_neg (by simp), herase]
        rw [hs]
        exact Restored.close ho' (.refl _)
      · cases h
        exact .inr ⟨k, x, t, rfl, hx, ht, rfl⟩
    · cases h
      exact .inl ⟨rfl, .refl s, rfl⟩

/-! ### `register_block` -/

/-- The state behind a registration of block `b`: the socket under `n`, the duplicate under `k`. -/
def added (s : Broker) (b : Nat) (block : SharedBufferBlock) (n k : Nat) (t : FdTable KernelObject) : Broker :=
  { s with
    table := t
    made := s.made ++ [s.table.descs.length] ++ [s.table.descs.length + 1]
    files := Function.update (s.unlink (s.pathOf block)).files (s.pathOf block) true
    sockets := (n, k) :: s.sockets
    registeredBlocks := (block.blockId, { serverSocket := n, socketPath := s.pathOf block }) :: s.registeredBlocks
    blocks := s.blocks.set b { block with socketPath := s.pathOf block }
    registeredPaths := s.registeredPaths ++ [s.pathOf block] }

/-- What `register_block` may come to. -/
inductive RegisterOutcome (s : Broker) (b : Nat) (block : SharedBufferBlock) : Broker → Except Exn String → Prop
  | unshared : block.nativeHandle < 0 → RegisterOutcome s b block s (.ok "")
  | found {item : RegisteredBlock} : s.registeredBlocks.lookup block.blockId = some item →
      RegisterOutcome s b block s (.ok item.socketPath)
  | refused {s' : Broker} {message : String} : s.registeredBlocks.lookup block.blockId = none → Restored s s' →
      s'.files (s.pathOf block) = false → (∀ q, q ≠ s.pathOf block → s'.files q = s.files q) →
        RegisterOutcome s b block s' (.error (.runtimeError message))
  | added {n k : Nat} {t₁ t : FdTable KernelObject} {x : KernelObject} :
      s.registeredBlocks.lookup block.blockId = none → 0 ≤ block.nativeHandle →
      s.table.openAt n (.listener (s.pathOf block)) = some t₁ → t₁.object block.nativeHandle.toNat = some x →
      t₁.openAt k x = some t → RegisterOutcome s b block (s.added b block n k t) (.ok (s.pathOf block))

theorem unlink_self : (s.unlink path).files path = false := Function.update_self ..

theorem unlink_of_ne {q : String} (h : q ≠ path) : (s.unlink path).files q = s.files q := Function.update_of_ne h ..

theorem registerBlock_outcome {r : Except Exn String} (hs : Holds s items) (hb : s.blocks[b]? = some block)
    (h : s.registerBlock e b = some (s', r)) : RegisterOutcome s b block s' r := by
  unfold registerBlock at h
  rw [hb, Option.bind_eq_bind, Option.bind_some] at h
  split at h
  · rename_i hneg
    cases h
    exact .unshared hneg
  · rename_i hpos
    split at h
    · rename_i existing hlookup
      cases h
      exact .found hlookup
    · rename_i hlookup
      obtain ⟨⟨s₁, socket⟩, hc, h⟩ := Option.bind_eq_some_iff.1 h
      rcases createFdServerSocket_cases hc with ⟨rfl, hr, hfiles⟩ | ⟨n, t₁, rfl, ht₁, hs₁⟩
      · cases h
        refine .refused hlookup (hr.files _) unlink_self fun q hq => (unlink_of_ne hq).trans (hfiles q hq)
      · dsimp only at h
        obtain ⟨⟨s₂, added⟩, ha, h⟩ := Option.bind_eq_some_iff.1 h
        have hsock : s₁.sockets = s.sockets := by rw [hs₁]
        have hkey : ∀ item ∈ s₁.sockets, item.1 ≠ n := by
          intro item hitem hn
          rw [hsock] at hitem
          refine hs.open_ (n := n) (List.mem_append.2 (.inl (List.mem_flatMap.2 ⟨item, hitem, ?_⟩)))
            (FdTable.free_of_openAt ht₁)
          rw [← hn]
          exact List.mem_cons_self ..
        have ho : ∃ s₀, s.openFd n (.listener (s.pathOf block)) = some s₀ ∧ s₁ = { s₀ with files := s₁.files } := by
          refine ⟨_, openFd_eq_some.2 ⟨t₁, ht₁, rfl⟩, ?_⟩
          rw [hs₁]
        obtain ⟨s₀, ho, hs₀⟩ := ho
        rcases addSocket_cases hkey ha with ⟨rfl, hr, hfiles⟩ | ⟨k, x, t, rfl, hx, ht, hs₂⟩
        · cases h
          rw [hs₀] at hr
          refine .refused hlookup ((Restored.close ho hr.of_files).files _) unlink_self fun q hq =>
            (unlink_of_ne hq).trans ?_
          show s₂.files q = _
          rw [hfiles, hs₁]
          show Function.update (Function.update s.files _ false) _ true q = _
          rw [Function.update_of_ne hq, Function.update_of_ne hq]
        · cases h
          have hlen : t₁.descs.length = s.table.descs.length + 1 := by
            rw [FdTable.descs_openAt ht₁, List.length_append]
            rfl
          rw [hs₁] at hx ht
          have hfinal := RegisterOutcome.added (b := b) hlookup (Int.not_lt.1 hpos) ht₁ hx ht
          convert hfinal using 1
          rw [hs₂, hs₁]
          show _ = s.added b block n k t
          unfold added
          dsimp only
          rw [hlen]

/-! ### What the invariant becomes -/

namespace Holds

theorem free_not_mem (h : Holds s items) (hn : s.table.fds n = none) : n ∉ s.numbers := fun hmem => h.open_ hmem hn

theorem restored (h : Holds s items) (hr : Restored s s') (hpath : s'.files path = false)
    (hfiles : ∀ q, q ≠ path → s'.files q = s.files q) : Holds s' items := by
  have hnum : s'.numbers = s.numbers := by
    unfold numbers owned ownFds
    rw [hr.sockets, hr.epollFd, hr.eventFd]
  refine ⟨hr.table h.table, hr.closes h.closes, fun {n} hn => ?_, ?_, fun {d} hd => ?_, fun {d n} hd hn => ?_, ?_,
    fun {p} hp hf => ?_⟩
  · rw [hnum] at hn
    rw [hr.fds]
    exact h.open_ hn
  · rw [hnum]
    exact h.nodup
  · rcases hr.made hd with hd | hd
    · exact Nat.lt_of_lt_of_le (h.made hd) hr.descs.length_le
    · exact hd.2
  · rw [hr.fds] at hn
    unfold owned
    rw [hr.sockets]
    rcases hr.made hd with hd | hd
    · exact h.held hd hn
    · have := h.table.bound hn
      omega
  · rw [hr.sockets]
    exact h.sockets
  · rw [hr.registeredPaths] at hp
    by_cases hq : p = path
    · rw [hq, hpath] at hf
      cases hf
    · rw [hfiles p hq] at hf
      exact h.paths hp hf

theorem added {k : Nat} {t₁ t : FdTable KernelObject} (h : Holds s s.registeredBlocks)
    (ht₁ : s.table.openAt n (.listener (s.pathOf block)) = some t₁) (ht : t₁.openAt k x = some t) :
    Holds (s.added b block n k t) (s.added b block n k t).registeredBlocks := by
  have hlen₁ : t₁.descs.length = s.table.descs.length + 1 := by rw [FdTable.descs_openAt ht₁, List.length_append]; rfl
  have hlen : t.descs.length = s.table.descs.length + 2 := by
    rw [FdTable.descs_openAt ht, List.length_append, hlen₁]
    rfl
  have hfds : ∀ m, t.fds m = if m = k then some (s.table.descs.length + 1) else
      if m = n then some s.table.descs.length else s.table.fds m := by
    intro m
    rw [FdTable.fds_openAt ht, FdTable.fds_openAt ht₁, hlen₁]
  have hn := FdTable.free_of_openAt ht₁
  have hk := FdTable.free_of_openAt ht
  have hkn : k ≠ n := by
    rintro rfl
    rw [FdTable.fds_openAt ht₁, if_pos rfl] at hk
    cases hk
  have hk₀ : s.table.fds k = none := by
    rw [FdTable.fds_openAt ht₁, if_neg hkn] at hk
    exact hk
  have hcl : t.closes = s.table.closes := by
    obtain ⟨-, rfl⟩ := FdTable.openAt_eq_some.1 ht
    obtain ⟨-, rfl⟩ := FdTable.openAt_eq_some.1 ht₁
    rfl
  have hnum : (s.added b block n k t).numbers = n :: k :: s.numbers := rfl
  refine ⟨(h.table.openAt ht₁).openAt ht, ?_, fun {m} hm => ?_, ?_, fun {d} hd => ?_, fun {d m} hd hm => ?_,
    h.sockets.cons n, fun {p} hp hf => ?_⟩
  · show none ∉ t.closes
    rw [hcl]
    exact h.closes
  · show t.fds m ≠ none
    rw [hfds]
    rw [hnum] at hm
    split
    · exact Option.some_ne_none _
    · split
      · exact Option.some_ne_none _
      · rename_i hmk hmn
        rcases List.mem_cons.1 hm with rfl | hm
        · exact absurd rfl hmn
        · rcases List.mem_cons.1 hm with rfl | hm
          · exact absurd rfl hmk
          · exact h.open_ hm
  · rw [hnum, List.nodup_cons, List.nodup_cons]
    refine ⟨fun hmem => ?_, h.free_not_mem hk₀, h.nodup⟩
    rcases List.mem_cons.1 hmem with hnk | hmem
    · exact hkn hnk.symm
    · exact h.free_not_mem hn hmem
  · show d < t.descs.length
    rcases List.mem_append.1 hd with hd | hd
    · rcases List.mem_append.1 hd with hd | hd
      · have := h.made hd
        omega
      · have := List.mem_singleton.1 hd
        omega
    · have := List.mem_singleton.1 hd
      omega
  · show m ∈ n :: k :: s.owned
    change t.fds m = some d at hm
    rw [hfds] at hm
    split at hm
    · rename_i hmk
      rw [hmk]
      exact List.mem_cons_of_mem _ (List.mem_cons_self ..)
    · split at hm
      · rename_i hmn
        rw [hmn]
        exact List.mem_cons_self ..
      · refine List.mem_cons_of_mem _ (List.mem_cons_of_mem _ (h.held ?_ hm))
        have hlt := h.table.bound hm
        rcases List.mem_append.1 hd with hd | hd
        · rcases List.mem_append.1 hd with hd | hd
          · exact hd
          · have := List.mem_singleton.1 hd
            omega
        · have := List.mem_singleton.1 hd
          omega
  · by_cases hq : p = s.pathOf block
    · exact ⟨_, List.mem_cons_self .., hq.symm⟩
    · change Function.update (Function.update s.files _ false) _ true p = true at hf
      rw [Function.update_of_ne hq, Function.update_of_ne hq] at hf
      rcases List.mem_append.1 hp with hp | hp
      · obtain ⟨item, hitem, hpath⟩ := h.paths hp hf
        exact ⟨item, List.mem_cons_of_mem _ hitem, hpath⟩
      · exact absurd (List.mem_singleton.1 hp) hq

/-- The pool opens a memfd of its own. -/
theorem openAt {t : FdTable KernelObject} {l : List SharedBufferBlock} (h : Holds s items)
    (ht : s.table.openAt n x = some t) : Holds { s with table := t, blocks := l } items := by
  have hlen : t.descs.length = s.table.descs.length + 1 := by rw [FdTable.descs_openAt ht, List.length_append]; rfl
  have hcl : t.closes = s.table.closes := by
    obtain ⟨-, rfl⟩ := FdTable.openAt_eq_some.1 ht
    rfl
  refine ⟨h.table.openAt ht, ?_, fun {m} hm => ?_, h.nodup, fun {d} hd => ?_, fun {d m} hd hm => ?_, h.sockets, h.paths⟩
  · show none ∉ t.closes
    rw [hcl]
    exact h.closes
  · show t.fds m ≠ none
    rw [FdTable.fds_openAt ht]
    split
    · exact Option.some_ne_none _
    · exact h.open_ hm
  · show d < t.descs.length
    have := h.made hd
    omega
  · change t.fds m = some d at hm
    rw [FdTable.fds_openAt ht] at hm
    split at hm
    · cases hm
      exact absurd (h.made hd) (Nat.lt_irrefl _)
    · exact h.held hd hm

end Holds

namespace Blocks

theorem restored (h : Blocks s) (hs : Holds s items) (hr : Restored s s') : Blocks s' := by
  have hnum : s'.numbers = s.numbers := by
    unfold numbers owned ownFds
    rw [hr.sockets, hr.epollFd, hr.eventFd]
  refine ⟨?_, fun {b block} hb => ?_, fun {id item} hmem => ?_⟩
  · rw [hr.blocks]
    exact h.ids
  · rw [hr.blocks] at hb
    obtain ⟨hpos, hobj, hnot⟩ := h.handles hb
    obtain ⟨d, hd, -⟩ := Option.bind_eq_some_iff.1 hobj
    refine ⟨hpos, ?_, ?_⟩
    · rw [FdTable.object_of_fds hd (hs.table.bound hd) (by rw [hr.fds, hd]) hr.descs]
      exact hobj
    · rw [hnum]
      exact hnot
  · rw [hr.registeredBlocks] at hmem
    unfold pathOf
    rw [hr.blocks, hr.euid, hr.pid]
    exact h.entries hmem

/-- Descriptors with numbers that were free leave the blocks alone. -/
theorem object_added {t : FdTable KernelObject} {y : KernelObject} (hw : s.table.Wf) (ho : s.table.object m = some y)
    (ht : s.table.openAt n x = some t) : m ≠ n ∧ t.object m = some y := by
  obtain ⟨d, hd, -⟩ := Option.bind_eq_some_iff.1 ho
  have hmn : m ≠ n := by
    rintro rfl
    rw [FdTable.free_of_openAt ht] at hd
    cases hd
  exact ⟨hmn, by rw [FdTable.object_openAt hw ht hmn, ho]⟩

end Blocks

theorem map_blockId_set {l : List SharedBufferBlock} (hb : l[b]? = some block) (path : String) :
    (l.set b { block with socketPath := path }).map (·.blockId) = l.map (·.blockId) := by
  induction l generalizing b with
  | nil => rfl
  | cons a l ih =>
    cases b with
    | zero =>
      cases hb
      rfl
    | succ b =>
      rw [List.set_cons_succ, List.map_cons, List.map_cons, ih hb]

namespace Blocks

theorem added {k : Nat} {t₁ t : FdTable KernelObject} (h : Blocks s) (hs : Holds s items)
    (hb : s.blocks[b]? = some block) (ht₁ : s.table.openAt n (.listener (s.pathOf block)) = some t₁)
    (ht : t₁.openAt k x = some t) : Blocks (s.added b block n k t) := by
  refine ⟨?_, fun {c other} hc => ?_, fun {id item} hmem => ?_⟩
  · show ((s.blocks.set b _).map _).Nodup
    rw [map_blockId_set hb]
    exact h.ids
  · obtain ⟨old, hold, hhandle⟩ : ∃ old, s.blocks[c]? = some old ∧ other.nativeHandle = old.nativeHandle := by
      rcases Tally.get_set_cases hc with hc | ⟨rfl, rfl⟩
      · exact ⟨other, hc, rfl⟩
      · exact ⟨block, hb, rfl⟩
    obtain ⟨hpos, hobj, hnot⟩ := h.handles hold
    obtain ⟨h1, hobj₁⟩ := object_added hs.table hobj ht₁
    obtain ⟨h2, hobj₂⟩ := object_added (s := { s with table := t₁ }) (hs.table.openAt ht₁) hobj₁ ht
    rw [hhandle]
    refine ⟨hpos, hobj₂, fun hmem => ?_⟩
    change _ ∈ n :: k :: s.numbers at hmem
    rcases List.mem_cons.1 hmem with hmem | hmem
    · exact h1 hmem
    · rcases List.mem_cons.1 hmem with hmem | hmem
      · exact h2 hmem
      · exact hnot hmem
  · change (id, item) ∈ (block.blockId, _) :: s.registeredBlocks at hmem
    rcases List.mem_cons.1 hmem with hmem | hmem
    · cases hmem
      exact ⟨b, _, Tally.get_set_self hb, rfl, rfl⟩
    · obtain ⟨c, old, hc, hid, hpath⟩ := h.entries hmem
      by_cases hcb : c = b
      · subst hcb
        rw [hb] at hc
        cases hc
        exact ⟨c, _, Tally.get_set_self hb, hid, hpath⟩
      · refine ⟨c, old, ?_, hid, hpath⟩
        show (s.blocks.set b _)[c]? = _
        rw [List.getElem?_set_ne (Ne.symm hcb), hc]

theorem create {t : FdTable KernelObject} {id : UInt32} (h : Blocks s) (hs : Holds s items)
    (hid : id ∉ s.blocks.map (·.blockId)) (ht : s.table.openAt n (.memfd s.blocks.length) = some t) :
    Blocks { s with table := t, blocks := s.blocks ++ [{ nativeHandle := n, blockId := id }] } := by
  refine ⟨?_, fun {c block} hc => ?_, fun {id item} hmem => ?_⟩
  · show ((s.blocks ++ [_]).map _).Nodup
    rw [List.map_append, List.nodup_append]
    refine ⟨h.ids, List.nodup_singleton _, fun i hi j hj => ?_⟩
    rintro rfl
    rw [List.map_singleton, List.mem_singleton] at hj
    rw [hj] at hi
    exact hid hi
  · rcases Tally.get_append_cases hc with hc | ⟨rfl, rfl⟩
    · obtain ⟨hpos, hobj, hnot⟩ := h.handles hc
      exact ⟨hpos, (object_added hs.table hobj ht).2, hnot⟩
    · exact ⟨Int.natCast_nonneg n, FdTable.object_openAt_self ht, hs.free_not_mem (FdTable.free_of_openAt ht)⟩
  · obtain ⟨c, block, hc, hrest⟩ := h.entries hmem
    exact ⟨c, block, Tally.get_of_initial (List.prefix_append ..) hc, hrest⟩

end Blocks

theorem Inv.init (h : Init s) : Inv s := by
  have howned : s.owned = [] := by
    unfold owned
    rw [h.sockets]
    rfl
  have hnum : s.numbers = s.ownFds := by rw [numbers, howned, List.nil_append]
  constructor
  · intro _
    refine ⟨h.table, h.closes, fun {n} hn => ?_, ?_, fun {d} hd => ?_, fun {d n} hd _ => ?_, ?_, fun {p} hp _ => ?_⟩
    · rw [hnum] at hn
      exact h.open_ hn
    · rw [hnum]
      exact h.distinct
    · rw [h.made] at hd
      cases hd
    · rw [h.made] at hd
      cases hd
    · rw [h.sockets, h.registeredBlocks]
      exact .nil
    · rw [h.registeredPaths] at hp
      cases hp
  · intro _
    refine ⟨?_, fun {b block} hb => ?_, fun {id item} hmem => ?_⟩
    · rw [h.blocks]
      exact .nil
    · rw [h.blocks] at hb
      cases hb
    · rw [h.registeredBlocks] at hmem
      cases hmem

theorem Inv.register {r : Except Exn String} (h : Inv s) (halive : s.alive = true)
    (hr : s.registerBlock e b = some (s', r)) : Inv s' := by
  obtain ⟨block, hb, -⟩ := Option.bind_eq_some_iff.1 hr
  have hs := h.holds halive
  have hblocks := h.blocks halive
  rcases registerBlock_outcome hs hb hr with - | - | ⟨-, hrest, hpath, hfiles⟩ | ⟨-, -, ht₁, -, ht⟩
  · exact h
  · exact h
  · refine ⟨fun _ => ?_, fun _ => hblocks.restored hs hrest⟩
    rw [hrest.registeredBlocks]
    exact hs.restored hrest hpath hfiles
  · exact ⟨fun _ => hs.added ht₁ ht, fun _ => hblocks.added hs hb ht₁ ht⟩

theorem Inv.step {op : BrokerOp} (h : Inv s) (hst : step s op = some s') : Inv s' := by
  unfold Broker.step at hst
  split at hst
  · cases hst
  · rename_i halive
    rw [Bool.not_eq_false] at halive
    cases op with
    | createBlock n id =>
      change s.createBlock n id = some s' at hst
      unfold createBlock at hst
      split at hst
      · cases hst
      · rename_i hid
        obtain ⟨t, ht, rfl⟩ := Option.map_eq_some_iff.1 hst
        have hs := h.holds halive
        refine ⟨fun _ => hs.openAt ht, fun _ => (h.blocks halive).create hs ?_ ht⟩
        simpa using hid
    | register e b =>
      obtain ⟨⟨s₁, r⟩, hr, rfl⟩ := Option.map_eq_some_iff.1 hst
      exact h.register halive hr
    | destroy order =>
      change s.destroy order = some s' at hst
      unfold destroy at hst
      split at hst
      · cases hst
        constructor
        · intro hal
          cases hal
        · intro hal
          cases hal
      · cases hst

theorem Reachable.inv (h : Reachable s) : Inv s :=
  Machine.ReachIf.inv (fun _ => Inv.init) (fun _ _ _ hs _ hst => hs.step hst) h

/-! ### The destructor -/

theorem nodup_keys {l : List (Nat × Nat)} (h : (l.flatMap fun item => [item.1, item.2]).Nodup) :
    (l.map Prod.fst).Nodup := by
  induction l with
  | nil => exact .nil
  | cons a l ih =>
    rw [List.flatMap_cons, List.cons_append, List.cons_append, List.nil_append, List.nodup_cons, List.nodup_cons] at h
    rw [List.map_cons, List.nodup_cons]
    refine ⟨fun hmem => ?_, ih h.2.2⟩
    obtain ⟨b, hb, hba⟩ := List.mem_map.1 hmem
    refine h.1 (List.mem_cons_of_mem _ (List.mem_flatMap.2 ⟨b, hb, ?_⟩))
    rw [← hba]
    exact List.mem_cons_self ..

/-- `remove_socket` finds the duplicate beside the socket and closes both. -/
theorem removeSocket_eq {k : Nat} (hkeys : (s.sockets.map Prod.fst).Nodup) (hmem : (n, k) ∈ s.sockets) :
    ∃ l, s.sockets.Perm ((n, k) :: l) ∧
      s.removeSocket n = { s with table := (s.table.close n).close k, sockets := l } := by
  obtain ⟨l₁, l₂, hl⟩ := List.append_of_mem hmem
  refine ⟨l₁ ++ l₂, by rw [hl]; exact List.perm_middle, ?_⟩
  have hother : ∀ item ∈ l₁ ++ l₂, item.1 ≠ n := by
    intro item hitem hin
    rw [hl, List.map_append, List.map_cons] at hkeys
    have hnot := (List.nodup_cons.1 (hkeys.perm List.perm_middle)).1
    rw [← List.map_append] at hnot
    exact hnot (List.mem_map.2 ⟨item, hitem, hin⟩)
  have hlookup : s.sockets.lookup n = some k := by
    rw [hl]
    refine List.lookup_eq_some_iff.2 ⟨l₁, l₂, rfl, fun item hitem => ?_⟩
    exact bne_iff_ne.2 (Ne.symm (hother item (List.mem_append.2 (.inl hitem))))
  have hfilter : s.sockets.filter (fun item => decide (item.1 ≠ n)) = l₁ ++ l₂ := by
    rw [hl, List.filter_append, List.filter_cons_of_neg (by simp), ← List.filter_append, List.filter_eq_self]
    intro item hitem
    exact decide_eq_true (hother item hitem)
  unfold removeSocket eraseSocket closeFd
  dsimp only
  rw [hlookup, hfilter]

namespace Holds

theorem perm {items' : List (UInt32 × RegisteredBlock)} (h : Holds s items) (hp : items.Perm items') :
    Holds s items' where
  table := h.table
  closes := h.closes
  open_ := h.open_
  nodup := h.nodup
  made := h.made
  held := h.held
  sockets := h.sockets.trans (hp.map _)
  paths hmem hf := by
    obtain ⟨item, hitem, hpath⟩ := h.paths hmem hf
    exact ⟨item, hp.mem_iff.1 hitem, hpath⟩

/-- One entry goes, with both its descriptors and its file. -/
theorem removeBlock (h : Holds s (item :: items)) : Holds (s.removeBlock item) items := by
  obtain ⟨key, n, path⟩ := item
  have hkey : n ∈ s.sockets.map Prod.fst := h.sockets.mem_iff.2 (List.mem_cons_self ..)
  obtain ⟨⟨n', k⟩, hmem, hn'⟩ := List.mem_map.1 hkey
  change n' = n at hn'
  subst hn'
  obtain ⟨l, hl, hs'⟩ := removeSocket_eq (nodup_keys (List.nodup_append.1 h.nodup).1) hmem
  have hnum : s.numbers.Perm (n' :: k :: (l.flatMap (fun item => [item.1, item.2]) ++ s.ownFds)) :=
    (hl.flatMap_right _).append_right _
  have hnodup := h.nodup.perm hnum
  rw [List.nodup_cons, List.nodup_cons] at hnodup
  obtain ⟨hn, hk, hrest⟩ := hnodup
  have hkn : k ≠ n' := fun hkn => hn (by rw [hkn]; exact List.mem_cons_self ..)
  have hfds : ∀ m, ((s.table.close n').close k).fds m = if m = k then none else if m = n' then none
    else s.table.fds m := by
    intro m
    rw [FdTable.fds_close, FdTable.fds_close]
  unfold Broker.removeBlock
  rw [hs']
  refine ⟨(h.table.close n').close k, ?_, fun {m} hm => ?_, hrest, h.made, fun {d m} hd hm => ?_, ?_,
    fun {p} hp hf => ?_⟩
  · intro hnone
    rcases List.mem_append.1 hnone with hnone | hnone
    · rcases List.mem_append.1 hnone with hnone | hnone
      · exact h.closes hnone
      · exact h.open_ (hnum.mem_iff.2 (List.mem_cons_self ..)) (List.mem_singleton.1 hnone).symm
    · have hnone := (List.mem_singleton.1 hnone).symm
      rw [FdTable.fds_close, if_neg hkn] at hnone
      exact h.open_ (hnum.mem_iff.2 (List.mem_cons_of_mem _ (List.mem_cons_self ..))) hnone
  · change m ∈ l.flatMap _ ++ s.ownFds at hm
    show ((s.table.close n').close k).fds m ≠ none
    rw [hfds, if_neg, if_neg]
    · exact h.open_ (hnum.mem_iff.2 (List.mem_cons_of_mem _ (List.mem_cons_of_mem _ hm)))
    · rintro rfl
      exact hn (List.mem_cons_of_mem _ hm)
    · rintro rfl
      exact hk hm
  · change ((s.table.close n').close k).fds m = some d at hm
    rw [hfds] at hm
    split at hm
    · cases hm
    · split at hm
      · cases hm
      · rename_i hmk hmn
        have hmem := (hl.flatMap_right (fun item => [item.1, item.2])).mem_iff.1 (h.held hd hm)
        rcases List.mem_cons.1 hmem with hmem | hmem
        · exact absurd hmem hmn
        · rcases List.mem_cons.1 hmem with hmem | hmem
          · exact absurd hmem hmk
          · exact hmem
  · exact ((hl.map Prod.fst).symm.trans h.sockets).cons_inv
  · change Function.update s.files path false p = true at hf
    rw [Function.update_apply] at hf
    split at hf
    · cases hf
    · rename_i hne
      obtain ⟨other, hother, hpath⟩ := h.paths hp hf
      rcases List.mem_cons.1 hother with rfl | hother
      · exact absurd hpath.symm hne
      · exact ⟨other, hother, hpath⟩

/-- The loop of the destructor. -/
theorem foldl_removeBlock (h : Holds s items) : Holds (items.foldl Broker.removeBlock s) [] := by
  induction items generalizing s with
  | nil => exact h
  | cons item items ih => exact ih h.removeBlock

end Holds

theorem foldl_removeBlock_made (s : Broker) (items : List (UInt32 × RegisteredBlock)) :
    (items.foldl removeBlock s).made = s.made ∧
    (items.foldl removeBlock s).registeredPaths = s.registeredPaths := by
  induction items generalizing s with
  | nil => exact ⟨rfl, rfl⟩
  | cons item items ih =>
    obtain ⟨h1, h2⟩ := ih (s.removeBlock item)
    have hone : (s.removeBlock item).made = s.made ∧ (s.removeBlock item).registeredPaths = s.registeredPaths := by
      unfold removeBlock removeSocket
      dsimp only
      split <;> exact ⟨rfl, rfl⟩
    exact ⟨h1.trans hone.1, h2.trans hone.2⟩

/-- Nothing of the broker's making is open, and no close has missed. -/
structure Released (s : Broker) : Prop where
  table : s.table.Wf
  closes : none ∉ s.table.closes
  made {d : Nat} : d ∈ s.made → d < s.table.descs.length
  shut {d n : Nat} : d ∈ s.made → s.table.fds n ≠ some d

theorem Released.closeFd (h : Released s) (hn : s.table.fds n ≠ none) : Released (s.closeFd n) := by
  refine ⟨h.table.close n, fun hmem => ?_, h.made, fun {d m} hd hm => ?_⟩
  · rcases List.mem_append.1 hmem with hmem | hmem
    · exact h.closes hmem
    · exact hn (List.mem_singleton.1 hmem).symm
  · change (s.table.close n).fds m = some d at hm
    rw [FdTable.fds_close] at hm
    split at hm
    · cases hm
    · exact h.shut hd hm

theorem Released.of_eq (h : Released s) (ht : s'.table = s.table) (hm : s'.made = s.made) : Released s' := by
  refine ⟨?_, ?_, fun {d} hd => ?_, fun {d n} hd => ?_⟩
  · rw [ht]
    exact h.table
  · rw [ht]
    exact h.closes
  · rw [hm] at hd
    rw [ht]
    exact h.made hd
  · rw [hm] at hd
    rw [ht]
    exact h.shut hd

/-- A dispatcher whose map is empty closes only its own two descriptors. -/
theorem stop_released (hsock : s.sockets = []) (h : Released s) (hopen : ∀ n ∈ s.ownFds, s.table.fds n ≠ none)
    (hnodup : s.ownFds.Nodup) : Released s.stop := by
  unfold stop
  split
  · exact h
  · rw [hsock]
    dsimp only [List.foldl_nil]
    cases hev : s.eventFd with
    | none =>
      cases hep : s.epollFd with
      | none => exact h.of_eq rfl rfl
      | some m =>
        have hm : s.table.fds m ≠ none := hopen m (by simp [ownFds, hep])
        exact (h.closeFd hm).of_eq rfl rfl
    | some n =>
      have hn : s.table.fds n ≠ none := hopen n (by simp [ownFds, hev])
      cases hep : s.epollFd with
      | none => exact (h.closeFd hn).of_eq rfl rfl
      | some m =>
        have hmn : m ≠ n := by
          rintro rfl
          simp [ownFds, hev, hep] at hnodup
        have hm : (s.table.close n).fds m ≠ none := by
          rw [FdTable.fds_close, if_neg hmn]
          exact hopen m (by simp [ownFds, hep])
        exact ((h.closeFd hn).closeFd (n := m) hm).of_eq rfl rfl

theorem foldl_closeFd_frame {l : List (Nat × Nat)} :
    (l.foldl (fun s item => (s.closeFd item.1).closeFd item.2) s).made = s.made ∧
      (l.foldl (fun s item => (s.closeFd item.1).closeFd item.2) s).registeredPaths = s.registeredPaths ∧
      (l.foldl (fun s item => (s.closeFd item.1).closeFd item.2) s).files = s.files := by
  induction l generalizing s with
  | nil => exact ⟨rfl, rfl, rfl⟩
  | cons item l ih => exact ih (s := (s.closeFd item.1).closeFd item.2)

theorem stop_frame : s.stop.made = s.made ∧ s.stop.registeredPaths = s.registeredPaths ∧ s.stop.files = s.files := by
  unfold stop
  split
  · exact ⟨rfl, rfl, rfl⟩
  · have hfold := foldl_closeFd_frame (s := { s with running := false }) (l := s.sockets)
    dsimp only
    split <;> split <;> exact hfold

/-- What the destructor leaves. -/
theorem destroy_released {order : List (UInt32 × RegisteredBlock)} (hs : Holds s s.registeredBlocks)
    (h : s.destroy order = some s') :
    Released s' ∧ s'.made = s.made ∧ s'.registeredPaths = s.registeredPaths ∧
      ∀ p ∈ s'.registeredPaths, s'.files p = false := by
  unfold destroy at h
  split at h
  · rename_i hperm
    cases h
    have hend := (hs.perm (List.isPerm_iff.1 hperm).symm).foldl_removeBlock
    obtain ⟨hmade, hpaths⟩ := foldl_removeBlock_made s order
    generalize order.foldl removeBlock s = s₁ at hend hmade hpaths
    have hsock : s₁.sockets = [] := by
      have := hend.sockets
      rw [List.map_nil, List.perm_nil, List.map_eq_nil_iff] at this
      exact this
    have howned : s₁.owned = [] := by
      unfold owned
      rw [hsock]
      rfl
    have hrel : Released { s₁ with registeredBlocks := [] } := by
      refine ⟨hend.table, hend.closes, hend.made, fun {d n} hd hn => ?_⟩
      have := hend.held hd hn
      rw [howned] at this
      cases this
    have hstop := stop_released (s := { s₁ with registeredBlocks := [] }) hsock hrel
      (fun n hn => hend.open_ (List.mem_append.2 (.inr hn))) (List.nodup_append.1 hend.nodup).2.1
    obtain ⟨h1, h2, h3⟩ := stop_frame (s := { s₁ with registeredBlocks := [] })
    refine ⟨hstop.of_eq rfl rfl, h1.trans hmade, h2.trans hpaths, fun p hp => ?_⟩
    change p ∈ (Broker.stop _).registeredPaths at hp
    show (Broker.stop _).files p = false
    rw [h2] at hp
    rw [h3]
    refine Bool.eq_false_iff.2 fun hf => ?_
    obtain ⟨item, hitem, -⟩ := hend.paths hp hf
    cases hitem
  · cases h

/-! ### A later try -/

/-- Two brokers that answer `register_block` alike. -/
structure Alike (s s' : Broker) : Prop where
  table : s.table.Wf
  table' : s'.table.Wf
  free (n : Nat) : s'.table.fds n = none ↔ s.table.fds n = none
  object (n : Nat) : s'.table.object n = s.table.object n
  euid : s'.euid = s.euid
  pid : s'.pid = s.pid
  blocks : s'.blocks = s.blocks
  registeredBlocks : s'.registeredBlocks = s.registeredBlocks
  running : s'.running = s.running

namespace Alike

theorem symm (h : Alike s s') : Alike s' s :=
  ⟨h.table', h.table, fun n => (h.free n).symm, fun n => (h.object n).symm, h.euid.symm, h.pid.symm, h.blocks.symm,
    h.registeredBlocks.symm, h.running.symm⟩

theorem of_restored (hs : s.table.Wf) (h : Restored s s') : Alike s s' := by
  refine ⟨hs, h.table hs, fun n => by rw [h.fds], fun n => ?_, h.euid, h.pid, h.blocks, h.registeredBlocks, h.running⟩
  cases hn : s.table.fds n with
  | none => rw [FdTable.object, FdTable.object, h.fds, hn, Option.bind_none, Option.bind_none]
  | some d => exact FdTable.object_of_fds hn (hs.bound hn) (by rw [h.fds, hn]) h.descs

/-- Fields that `register_block` does not read may differ. -/
theorem of_eq {t t' : Broker} (h : Alike s s') (h1 : t.table = s.table) (h2 : t'.table = s'.table)
    (he : t.euid = s.euid ∧ t'.euid = s'.euid) (hp : t.pid = s.pid ∧ t'.pid = s'.pid)
    (hb : t.blocks = s.blocks ∧ t'.blocks = s'.blocks)
    (hr : t.registeredBlocks = s.registeredBlocks ∧ t'.registeredBlocks = s'.registeredBlocks)
    (hu : t.running = s.running ∧ t'.running = s'.running) : Alike t t' := by
  refine ⟨?_, ?_, fun n => ?_, fun n => ?_, ?_, ?_, ?_, ?_, ?_⟩
  · rw [h1]
    exact h.table
  · rw [h2]
    exact h.table'
  · rw [h1, h2, h.free]
  · rw [h1, h2, h.object]
  · rw [he.1, he.2, h.euid]
  · rw [hp.1, hp.2, h.pid]
  · rw [hb.1, hb.2, h.blocks]
  · rw [hr.1, hr.2, h.registeredBlocks]
  · rw [hu.1, hu.2, h.running]

theorem openFd (h : Alike s s') (ho : s.openFd n x = some s₁) : ∃ s₁', s'.openFd n x = some s₁' ∧ Alike s₁ s₁' := by
  obtain ⟨t, ht, rfl⟩ := openFd_eq_some.1 ho
  have hfree := (h.free n).2 (FdTable.free_of_openAt ht)
  have ht' : s'.table.openAt n x = some _ := FdTable.openAt_eq_some.2 ⟨hfree, rfl⟩
  refine ⟨_, openFd_eq_some.2 ⟨_, ht', rfl⟩, h.table.openAt ht, h.table'.openAt ht', fun m => ?_, fun m => ?_, h.euid,
    h.pid, h.blocks, h.registeredBlocks, h.running⟩
  · show FdTable.fds _ m = none ↔ FdTable.fds _ m = none
    rw [FdTable.fds_openAt ht', FdTable.fds_openAt ht]
    split
    · simp
    · exact h.free m
  · by_cases hm : m = n
    · subst hm
      show FdTable.object _ m = FdTable.object _ m
      rw [FdTable.object_openAt_self ht, FdTable.object_openAt_self ht']
    · show FdTable.object _ m = FdTable.object _ m
      rw [FdTable.object_openAt h.table ht hm, FdTable.object_openAt h.table' ht' hm, h.object]

theorem closeFd (h : Alike s s') (n : Nat) : Alike (s.closeFd n) (s'.closeFd n) := by
  refine ⟨h.table.close n, h.table'.close n, fun m => ?_, fun m => ?_, h.euid, h.pid, h.blocks, h.registeredBlocks,
    h.running⟩
  · show (s'.table.close n).fds m = none ↔ (s.table.close n).fds m = none
    rw [FdTable.fds_close, FdTable.fds_close]
    split
    · simp
    · exact h.free m
  · show (s'.table.close n).object m = (s.table.close n).object m
    by_cases hm : m = n
    · subst hm
      rw [FdTable.object, FdTable.object, FdTable.fds_close, FdTable.fds_close, if_pos rfl, if_pos rfl]
      rfl
    · rw [FdTable.object_close hm, FdTable.object_close hm, h.object]

theorem createFdServerSocket {o : Option Nat} (h : Alike s s') (hc : s.createFdServerSocket e path = some (s₁, o)) :
    ∃ s₁', s'.createFdServerSocket e path = some (s₁', o) ∧ Alike s₁ s₁' := by
  unfold Broker.createFdServerSocket at hc ⊢
  split at hc
  · rename_i hpath
    cases hc
    exact ⟨s', if_pos hpath, h⟩
  · rename_i hpath
    rw [if_neg hpath]
    split at hc
    · cases hc
      exact ⟨s', rfl, h⟩
    · obtain ⟨s₂, ho, hc⟩ := Option.bind_eq_some_iff.1 hc
      obtain ⟨s₂', ho', h₂⟩ := h.openFd ho
      dsimp only
      rw [ho', Option.bind_eq_bind, Option.bind_some]
      split at hc
      · rename_i hbind
        cases hc
        rw [if_pos hbind]
        exact ⟨_, rfl, (h₂.closeFd _).of_eq rfl rfl ⟨rfl, rfl⟩ ⟨rfl, rfl⟩ ⟨rfl, rfl⟩ ⟨rfl, rfl⟩ ⟨rfl, rfl⟩⟩
      · rename_i hbind
        rw [if_neg hbind]
        split at hc
        · rename_i hlisten
          cases hc
          rw [if_pos hlisten]
          exact ⟨_, rfl, (h₂.closeFd _).of_eq rfl rfl ⟨rfl, rfl⟩ ⟨rfl, rfl⟩ ⟨rfl, rfl⟩ ⟨rfl, rfl⟩ ⟨rfl, rfl⟩⟩
        · rename_i hlisten
          cases hc
          rw [if_neg hlisten]
          exact ⟨_, rfl, h₂.of_eq rfl rfl ⟨rfl, rfl⟩ ⟨rfl, rfl⟩ ⟨rfl, rfl⟩ ⟨rfl, rfl⟩ ⟨rfl, rfl⟩⟩

theorem addSocket {r : Bool} (h : Alike s s') (ha : s.addSocket e n m = some (s₁, r)) :
    ∃ s₁', s'.addSocket e n m = some (s₁', r) := by
  unfold Broker.addSocket at ha ⊢
  rw [h.running, h.object]
  split at ha
  · rename_i hrun
    cases ha
    exact ⟨s', if_pos hrun⟩
  · rename_i hrun
    rw [if_neg hrun]
    split at ha
    · rename_i k x _ _
      obtain ⟨s₂, ho, ha⟩ := Option.bind_eq_some_iff.1 ha
      obtain ⟨s₂', ho', -⟩ := h.openFd ho
      dsimp only
      rw [ho', Option.bind_eq_bind, Option.bind_some]
      split at ha
      · rename_i hep
        cases ha
        exact ⟨_, if_pos hep⟩
      · rename_i hep
        cases ha
        exact ⟨_, if_neg hep⟩
    · cases ha
      exact ⟨s', rfl⟩

theorem registerBlock {r : Except Exn String} (h : Alike s s') (hr : s.registerBlock e b = some (s₁, r)) :
    ∃ s₁', s'.registerBlock e b = some (s₁', r) := by
  unfold Broker.registerBlock at hr ⊢
  obtain ⟨block, hb, hr⟩ := Option.bind_eq_some_iff.1 hr
  rw [h.blocks, hb, Option.bind_eq_bind, Option.bind_some, h.registeredBlocks]
  split at hr
  · rename_i hneg
    cases hr
    exact ⟨s', if_pos hneg⟩
  · rename_i hneg
    rw [if_neg hneg]
    split at hr
    · cases hr
      exact ⟨s', rfl⟩
    · have hpath : s'.pathOf block = s.pathOf block := by
        unfold pathOf
        rw [h.euid, h.pid]
      obtain ⟨⟨s₂, socket⟩, hc, hr⟩ := Option.bind_eq_some_iff.1 hr
      obtain ⟨s₂', hc', h₂⟩ := h.createFdServerSocket hc
      dsimp only
      rw [hpath, hc', Option.bind_eq_bind, Option.bind_some]
      dsimp only at hr ⊢
      cases socket with
      | none =>
        cases hr
        exact ⟨_, rfl⟩
      | some n =>
        dsimp only at hr ⊢
        obtain ⟨⟨s₃, added⟩, ha, hr⟩ := Option.bind_eq_some_iff.1 hr
        obtain ⟨s₃', ha'⟩ := h₂.addSocket ha
        rw [ha', Option.bind_eq_bind, Option.bind_some]
        dsimp only at hr ⊢
        split at hr
        · rename_i hadd
          cases hr
          exact ⟨_, if_pos hadd⟩
        · rename_i hadd
          cases hr
          exact ⟨_, if_neg hadd⟩

/-- The same answer, whatever the system calls do. -/
theorem result_eq (h : Alike s s') (e : RegisterEnv) (b : Nat) :
    (s'.registerBlock e b).map Prod.snd = (s.registerBlock e b).map Prod.snd := by
  cases hr : s.registerBlock e b with
  | some q =>
    obtain ⟨s₁, r⟩ := q
    obtain ⟨s₁', hr'⟩ := h.registerBlock hr
    rw [hr']
    rfl
  | none =>
    cases hr' : s'.registerBlock e b with
    | none => rfl
    | some q =>
      obtain ⟨s₁', r⟩ := q
      obtain ⟨s₁, hs⟩ := h.symm.registerBlock hr'
      rw [hr] at hs
      cases hs

end Alike

/-! ### The broker as a whole -/

/-- What a `register_block` that throws leaves. -/
structure Undone (s s' : Broker) (b : Nat) (block : SharedBufferBlock) : Prop where
  registeredBlocks : s'.registeredBlocks = s.registeredBlocks
  sockets : s'.sockets = s.sockets
  fds : s'.table.fds = s.table.fds
  file : s'.files (s.pathOf block) = false
  /-- A later call does as if this one had not been made. -/
  retry (e : RegisterEnv) : (s'.registerBlock e b).map Prod.snd = (s.registerBlock e b).map Prod.snd

/-- What the first `register_block` of a block adds: a listening socket `n` and a duplicate `k`. -/
structure Entered (s s' : Broker) (b : Nat) (block : SharedBufferBlock) (n k : Nat) : Prop where
  registeredBlocks : s'.registeredBlocks =
    (block.blockId, { serverSocket := n, socketPath := s.pathOf block }) :: s.registeredBlocks
  sockets : s'.sockets = (n, k) :: s.sockets
  free : s.table.fds n = none ∧ s.table.fds k = none ∧ k ≠ n
  fds (m : Nat) : s'.table.fds m = if m = k then some (s.table.descs.length + 1) else
    if m = n then some s.table.descs.length else s.table.fds m
  descs : s'.table.descs = s.table.descs ++ [.listener (s.pathOf block), .memfd b]
  made : s'.made = s.made ++ [s.table.descs.length] ++ [s.table.descs.length + 1]
  file : s'.files (s.pathOf block) = true
  registeredPaths : s'.registeredPaths = s.registeredPaths ++ [s.pathOf block]

/-- What the destructor leaves. -/
structure Dissolved (s : Broker) : Prop where
  closed {d : Nat} : d ∈ s.made → s.table.closes.count (some d) = 1
  /-- Every close hit an open descriptor. -/
  hit : none ∉ s.table.closes
  unlinked {p : String} : p ∈ s.registeredPaths → s.files p = false

theorem entered_added {k : Nat} {t₁ t : FdTable KernelObject} (h : Blocks s) (hs : Holds s items)
    (hb : s.blocks[b]? = some block) (ht₁ : s.table.openAt n (.listener (s.pathOf block)) = some t₁)
    (hx : t₁.object block.nativeHandle.toNat = some x) (ht : t₁.openAt k x = some t) :
    Entered s (s.added b block n k t) b block n k := by
  have hlen₁ : t₁.descs.length = s.table.descs.length + 1 := by rw [FdTable.descs_openAt ht₁, List.length_append]; rfl
  have hk := FdTable.free_of_openAt ht
  rw [FdTable.fds_openAt ht₁] at hk
  split at hk
  · cases hk
  · rename_i hkn
    obtain ⟨-, hobj⟩ := Blocks.object_added hs.table (h.handles hb).2.1 ht₁
    rw [hobj] at hx
    cases hx
    have hfile : (s.added b block n k t).files (s.pathOf block) = true := by
      simp only [added, Function.update_self]
    refine ⟨rfl, rfl, ⟨FdTable.free_of_openAt ht₁, hk, hkn⟩, fun m => ?_, ?_, rfl, hfile, rfl⟩
    · show t.fds m = _
      rw [FdTable.fds_openAt ht, FdTable.fds_openAt ht₁, hlen₁]
    · show t.descs = _
      rw [FdTable.descs_openAt ht, FdTable.descs_openAt ht₁, List.append_assoc]
      rfl

theorem mem_of_lookup {l : List (UInt32 × RegisteredBlock)} {id : UInt32} {c : RegisteredBlock}
    (h : l.lookup id = some c) : (id, c) ∈ l := by
  obtain ⟨l₁, l₂, hl, -⟩ := List.lookup_eq_some_iff.1 h
  rw [hl]
  exact List.mem_append.2 (.inr (List.mem_cons_self ..))

/-- The entry of a block tells the path of the block. -/
theorem Blocks.path_of_entry {c : RegisteredBlock} (h : Blocks s) (hb : s.blocks[b]? = some block)
    (hmem : (block.blockId, c) ∈ s.registeredBlocks) : c.socketPath = s.pathOf block := by
  obtain ⟨b', block', hb', hid, hpath⟩ := h.entries hmem
  have hone : (s.blocks.map (·.blockId))[b']? = (s.blocks.map (·.blockId))[b]? := by
    rw [List.getElem?_map, List.getElem?_map, hb, hb', Option.map_some, Option.map_some, hid]
  have hlt : b' < (s.blocks.map (·.blockId)).length := by
    rw [List.length_map]
    exact (List.getElem?_eq_some_iff.1 hb').1
  have hbb : b' = b := (List.getElem?_inj hlt h.ids).1 hone
  rw [hbb, hb] at hb'
  cases hb'
  exact hpath

/-- A registration is all or nothing, and the destructor gives everything back. -/
theorem registration_atomic (h : Reachable s) (halive : s.alive = true) :
    (∀ e b block s' r, s.blocks[b]? = some block → s.registerBlock e b = some (s', r) →
      (∀ x, r = .error x → Undone s s' b block) ∧
        (∀ path, r = .ok path → path = s.pathOf block ∧
          ((∃ item, (block.blockId, item) ∈ s.registeredBlocks) ∧ s' = s ∨
            (∀ item, (block.blockId, item) ∉ s.registeredBlocks) ∧ ∃ n k, Entered s s' b block n k))) ∧
      ∀ order s', s.destroy order = some s' → Dissolved s' := by
  have hs := h.inv.holds halive
  have hblocks := h.inv.blocks halive
  refine ⟨fun e b block s' r hb hr => ⟨fun x hx => ?_, fun path hpath => ?_⟩, fun order s' hd => ?_⟩
  · subst hx
    rcases registerBlock_outcome hs hb hr with - | - | ⟨-, hrest, hfile, -⟩ | -
    exact ⟨hrest.registeredBlocks, hrest.sockets, hrest.fds, hfile,
      fun e => (Alike.of_restored hs.table hrest).result_eq e b⟩
  · subst hpath
    rcases registerBlock_outcome hs hb hr with hneg | hlookup | - | ⟨hlookup, -, ht₁, hx, ht⟩
    · exact absurd (hblocks.handles hb).1 (Int.not_le.2 hneg)
    · have hmem := mem_of_lookup hlookup
      exact ⟨hblocks.path_of_entry hb hmem, .inl ⟨⟨_, hmem⟩, rfl⟩⟩
    · refine ⟨rfl, .inr ⟨fun item hmem => ?_, _, _, entered_added hblocks hs hb ht₁ hx ht⟩⟩
      have := List.lookup_eq_none_iff.1 hlookup _ hmem
      simp at this
  · obtain ⟨hrel, -, -, hfiles⟩ := destroy_released hs hd
    refine ⟨fun {d} hmade => ?_, hrel.closes, fun {p} hp => hfiles p hp⟩
    exact hrel.table.closed_once (hrel.made hmade) fun n => hrel.shut hmade

end

/-- A broker whose dispatcher runs, with nothing open yet but the dispatcher's own descriptors. -/
def started : Broker where
  table := { fds := fun n => if n = 0 then some 0 else if n = 1 then some 1 else none, descs := [.epoll, .event] }
  epollFd := some 0
  eventFd := some 1

theorem started_init : Init started := by
  refine ⟨⟨fun {n d} h => ?_, fun {n m d} hn hm => ?_, fun {n d} h => (by cases h), fun {d} h => (by cases h),
    fun d => Nat.zero_le 1, fun {d} h => .inl ⟨d, ?_⟩⟩, (fun h => by cases h), fun {n} hn => ?_,
    (by decide), rfl, rfl, rfl,
    rfl, rfl, rfl⟩
  · simp only [started] at h ⊢
    split at h
    · cases h
      decide
    · split at h
      · cases h
        decide
      · cases h
  · simp only [started] at hn hm
    split at hn <;> split at hm <;> simp_all
  · simp only [started, List.length_cons, List.length_nil] at h ⊢
    rcases (by omega : d = 0 ∨ d = 1) with rfl | rfl <;> rfl
  · simp only [ownFds, started, Option.toList_some, List.cons_append, List.nil_append, List.mem_cons,
      List.not_mem_nil, or_false] at hn ⊢
    rcases hn with rfl | rfl
    · decide
    · decide

/-- Block 0 is registered, block 1 is refused at the last call; then the broker goes. -/
theorem registration_atomic_refused : ∃ s s', Reachable s ∧ s.destroy s.registeredBlocks = some s' ∧
    s'.made.length = 4 ∧
    Dissolved s' := by
  have hlen : ((Machine.run step started [.createBlock 2 0, .createBlock 3 1,
      .register { socket := some 4, dup := some 5 } 0,
      .register { socket := some 6, dup := some 7, epollCtl := false } 1]).bind fun s =>
        (s.destroy s.registeredBlocks).map fun s' => (s.alive, s'.made.length)) = some (true, 4) := by decide
  obtain ⟨s, hrun, hd⟩ := Option.bind_eq_some_iff.1 hlen
  obtain ⟨s', hs', hpair⟩ := Option.map_eq_some_iff.1 hd
  have hreach : Reachable s := Machine.Reach.run (.start started_init) hrun
  exact ⟨s, s', hreach, hs', congrArg Prod.snd hpair, (registration_atomic hreach (congrArg Prod.fst hpair)).2 _ _ hs'⟩

end MemfdBuffer.Broker
