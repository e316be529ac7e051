import MemfdBuffer.Import.Lookup

/-!
# What the cache hides

A call of `import_block` should come to the same memory object whether or not the subscriber has a mapping in
its cache. A path says which process and which descriptor number, and both come back.
-/

namespace MemfdBuffer.Pool

/-- Blocks keep their place and their ID, registrations are never taken back. -/
structure Extends (p q : Pool) : Prop where
  identities {b : Nat} {identity : UInt32 × Int} : p.identities[b]? = some identity → q.identities[b]? = some identity
  registered {id : UInt32} {path : String} : p.registeredBlocks id = some path → q.registeredBlocks id = some path

namespace Extends
variable {p q r : Pool}

theorem of_same (h : Same p q) : Extends p q where
  identities hb := by rw [h.identities]; exact hb
  registered hr := by rw [h.registered]; exact hr

theorem refl (p : Pool) : Extends p p := .of_same (.refl p)

/-- A first registration. -/
theorem register {id : UInt32} {path : String} (hids : q.identities = p.identities)
    (hnone : p.registeredBlocks id = none)
    (hreg : q.registeredBlocks = Function.update p.registeredBlocks id (some path)) : Extends p q where
  identities hb := by rw [hids]; exact hb
  registered {id' path'} hr := by
    have hne : id' ≠ id := fun h => by
      rw [h, hnone] at hr
      cases hr
    rw [hreg, Function.update_of_ne hne]
    exact hr

theorem registerBlock (b euid : Nat) (pid : Int) (socket : Except Exn Unit) :
    Extends p (p.registerBlock b euid pid socket).1 := by
  obtain ⟨hp, -⟩ | ⟨block, -, hnone, ⟨hp, -⟩ | ⟨-, -, hids, hreg, -⟩⟩ :=
    IdRun.registerBlock_ids (fun _ => none) (Prod.mk.eta (p := p.registerBlock b euid pid socket)).symm
  · rw [hp]
    exact .refl p
  · rw [hp]
    exact .refl p
  · exact .register hids hnone hreg

theorem allocate {n : Nat} {e : AllocEnv} {x : Except Exn Nat} (h : p.allocate n e = (q, x)) : Extends p q := by
  rcases allocate_ids h with ⟨hsame, -⟩ | ⟨-, hreg, ⟨hids, -⟩ | ⟨-, fd, -, hids⟩⟩
  · exact .of_same hsame
  · exact ⟨fun hb => by rw [hids]; exact hb, fun hr => by rw [hreg]; exact hr⟩
  · refine ⟨fun hb => ?_, fun hr => by rw [hreg]; exact hr⟩
    rw [hids, List.getElem?_append_left (List.getElem?_eq_some_iff.1 hb).1]
    exact hb

theorem step {s s' : PoolRun} {op : PoolOp} (h : s.step op = some s') : Extends s.pool s'.pool := by
  cases op with
  | allocate n e =>
    cases ha : s.pool.allocate n e with
    | mk pool' r =>
      simp only [PoolRun.step, ha] at h
      cases r with
      | ok b => cases h; exact .allocate ha
      | error x => cases h; exact .allocate ha
  | free entry => cases h; exact .of_same (.free entry)
  | markPublished b now => cases h; exact .of_same (.markPublished now)
  | assignUid b uid => cases h; exact .of_same (.assignUid uid)
  | register b euid pid socket => cases h; exact .registerBlock b euid pid socket
  | outside act => cases h; exact .of_same .outsideStep

end Extends

end MemfdBuffer.Pool

namespace MemfdBuffer.Import

namespace System

/-- The memfd of a registered block. -/
structure Registered (s : System) (m : Memfd) : Prop where
  large : kSharedBufferPayloadOffset ≤ m.size
  small : m.size ≤ offMax
  registered : ∃ pool identity path, s.poolAt m.process m.pool = some pool ∧
    pool.run.pool.identities[m.block]? = some identity ∧ pool.run.pool.registeredBlocks identity.1 = some path

/-- `block` is a mapping of `m`, and can have been imported under `key`. -/
structure Entry (s : System) (key : CacheKey) (block : SharedBufferImportedBlock) (m : Memfd) : Prop where
  memfd : s.subscriber.memfdOf block = some m
  size : block.mappedSize = UInt64.ofNat m.size
  path : key.ipcName ≠ "" ∧ key.ipcName.utf8ByteSize < sunPathSize
  registered : s.Registered m

structure Inv (s : System) : Prop where
  backing : s.subscriber.backing.length = s.subscriber.world.mmaps.length
  pools {p k : Nat} {pool : PublisherPool} : s.poolAt p k = some pool → PoolRun.Reachable pool.run
  listeners {path : String} {m : Memfd} : s.listeners path = some m → s.Registered m
  cache {key : CacheKey} {block : SharedBufferImportedBlock} : s.subscriber.world.cache key = some block →
    ∃ m, s.Entry key block m

/-- Whoever listens under the path of a cached mapping serves what is mapped. -/
def Current (s : System) : Prop :=
  ∀ key block m, s.subscriber.world.cache key = some block → s.listeners key.ipcName = some m →
    s.subscriber.memfdOf block = some m

/-- What becomes of the publishers in a step. -/
structure Publishes (s : System) (event : Event) (s' : System) : Prop where
  subscriber : s'.subscriber = s.subscriber
  pools {p k : Nat} {pool : PublisherPool} : s'.poolAt p k = some pool → PoolRun.Reachable pool.run
  kept {p k : Nat} {pool : PublisherPool} : s.poolAt p k = some pool →
    ∃ pool', s'.poolAt p k = some pool' ∧ Pool.Extends pool.run.pool pool'.run.pool
  listeners {path : String} {m : Memfd} : s'.listeners path = some m →
    s.listeners path = some m ∨ s.binds event = some (path, m)
  binds {path : String} {m : Memfd} : s.binds event = some (path, m) →
    s'.listeners path = some m ∧ ¬ s.Registered m ∧ s'.Registered m

variable {s s' : System} {event : Event} {m : Memfd} {path : String} {p k q j : Nat} {pool pool' : PublisherPool}
  {publisher publisher' : Publisher}

/-! ### Publishers -/

theorem running_get (h : s.running p = some publisher) : s.publishers[p]? = some publisher :=
  (Option.filter_eq_some_iff.1 h).1

theorem livePool_get (h : publisher.livePool k = some pool) : publisher.pools[k]? = some pool :=
  (Option.filter_eq_some_iff.1 h).1

theorem poolAt_of_get (hp : s.publishers[p]? = some publisher) : s.poolAt p j = publisher.pools[j]? := by
  rw [poolAt, hp, Option.bind_some]

theorem poolAt_set (hp : s.publishers[p]? = some publisher) (hs : s'.publishers = s.publishers.set p publisher') :
    s'.poolAt q j = if q = p then publisher'.pools[j]? else s.poolAt q j := by
  unfold poolAt
  rw [hs]
  split
  · rename_i hq
    subst hq
    rw [List.getElem?_set_self (List.getElem?_eq_some_iff.1 hp).1, Option.bind_some]
  · rename_i hq
    rw [List.getElem?_set_ne (Ne.symm hq)]

theorem poolAt_setPool (hp : s.publishers[p]? = some publisher) (hk : publisher.pools[k]? = some pool) :
    (s.setPool p k publisher pool').poolAt q j = if q = p ∧ j = k then some pool' else s.poolAt q j := by
  rw [poolAt_set hp rfl]
  by_cases hq : q = p
  · subst hq
    rw [if_pos rfl, poolAt_of_get hp]
    by_cases hj : j = k
    · subst hj
      rw [if_pos ⟨rfl, rfl⟩]
      exact List.getElem?_set_self (List.getElem?_eq_some_iff.1 hk).1
    · rw [if_neg fun h => hj h.2]
      exact List.getElem?_set_ne (Ne.symm hj)
  · rw [if_neg hq, if_neg fun h => hq h.1]

theorem Registered.mono (hkept : ∀ {p k : Nat} {pool : PublisherPool}, s.poolAt p k = some pool →
      ∃ pool', s'.poolAt p k = some pool' ∧ Pool.Extends pool.run.pool pool'.run.pool)
    (h : s.Registered m) : s'.Registered m := by
  obtain ⟨pool, identity, path, hp, hb, hr⟩ := h.registered
  obtain ⟨pool', hp', he⟩ := hkept hp
  exact ⟨h.large, h.small, pool', identity, path, hp', he.identities hb, he.registered hr⟩

/-- A step in which no pool is called. -/
theorem Publishes.of_runs (hi : Inv s) (hsub : s'.subscriber = s.subscriber) (hb : s.binds event = none)
    (hl : ∀ path m, s'.listeners path = some m → s.listeners path = some m)
    (hpools : ∀ p k pool', s'.poolAt p k = some pool' →
      pool'.run = {} ∨ ∃ pool, s.poolAt p k = some pool ∧ pool'.run = pool.run)
    (hkept : ∀ p k pool, s.poolAt p k = some pool → ∃ pool', s'.poolAt p k = some pool' ∧ pool'.run = pool.run) :
    Publishes s event s' where
  subscriber := hsub
  pools {p k pool'} hp := by
    obtain hnew | ⟨pool, hold, hrun⟩ := hpools p k pool' hp
    · exact .start hnew
    · rw [hrun]
      exact hi.pools hold
  kept {p k pool} hp := by
    obtain ⟨pool', hp', hrun⟩ := hkept p k pool hp
    exact ⟨pool', hp', by rw [hrun]; exact .refl _⟩
  listeners h := .inl (hl _ _ h)
  binds h := by
    rw [hb] at h
    cases h

theorem publishes_spawn {euid : Nat} {pid : Int} (hi : Inv s) (h : s.step (.spawn euid pid) = some s') :
    Publishes s (.spawn euid pid) s' := by
  dsimp only [step] at h
  split at h
  · cases h
  · cases h
    refine .of_runs hi rfl rfl (fun _ _ hl => hl) (fun q j pool' hp => ?_) fun q j pool hp => ⟨pool, ?_, rfl⟩
    · obtain ⟨publisher, hq, hj⟩ := Option.bind_eq_some_iff.1 hp
      rcases Nat.lt_trichotomy q s.publishers.length with hlt | heq | hgt
      · rw [List.getElem?_append_left hlt] at hq
        exact .inr ⟨pool', (poolAt_of_get hq).trans hj, rfl⟩
      · -- the new process has no pools
        rw [heq, List.getElem?_concat_length] at hq
        cases hq
        cases hj
      · rw [List.getElem?_eq_none (by rw [List.length_append, List.length_singleton]; omega)] at hq
        cases hq
    · obtain ⟨publisher, hq, hj⟩ := Option.bind_eq_some_iff.1 hp
      refine Option.bind_eq_some_iff.2 ⟨publisher, ?_, hj⟩
      exact (List.getElem?_append_left (List.getElem?_eq_some_iff.1 hq).1).trans hq

theorem publishes_exit (hi : Inv s) (h : s.step (.exit p) = some s') : Publishes s (.exit p) s' := by
  dsimp only [step] at h
  split at h
  · cases h
  · rename_i publisher hrun
    have hp := running_get hrun
    cases h
    have hat (q j : Nat) : poolAt { s with
        publishers := s.publishers.set p { publisher with alive := false }
        listeners := fun path => (s.listeners path).filter (·.process != p) } q j = s.poolAt q j := by
      rw [poolAt_set hp rfl]
      split
      · rename_i hq
        rw [hq, poolAt_of_get hp]
      · rfl
    refine .of_runs hi rfl rfl (fun _ _ hl => (Option.filter_eq_some_iff.1 hl).1) (fun q j pool' hq => .inr ?_)
      fun q j pool hq => ⟨pool, (hat q j).trans hq, rfl⟩
    exact ⟨pool', (hat q j).symm.trans hq, rfl⟩

theorem publishes_createPool (hi : Inv s) (h : s.step (.createPool p) = some s') : Publishes s (.createPool p) s' := by
  dsimp only [step] at h
  split at h
  · cases h
  · rename_i publisher hrun
    have hp := running_get hrun
    cases h
    refine .of_runs hi rfl rfl (fun _ _ hl => hl) (fun q j pool' hq => ?_) fun q j pool hq => ⟨pool, ?_, rfl⟩
    · rw [poolAt_set hp rfl] at hq
      split at hq
      · rename_i hqp
        by_cases hj : j < publisher.pools.length
        · rw [List.getElem?_append_left hj] at hq
          exact .inr ⟨pool', by rw [hqp, poolAt_of_get hp]; exact hq, rfl⟩
        · rw [List.getElem?_append_right (by omega)] at hq
          exact .inl (by rw [List.mem_singleton.1 (List.mem_of_getElem? hq)])
      · exact .inr ⟨pool', hq, rfl⟩
    · rw [poolAt_set hp rfl]
      split
      · rename_i hqp
        rw [hqp, poolAt_of_get hp] at hq
        exact (List.getElem?_append_left (List.getElem?_eq_some_iff.1 hq).1).trans hq
      · exact hq

theorem unlinked_some {listeners : String → Option Memfd} {gone : Pool} (h : unlinked listeners gone path = some m) :
    listeners path = some m := by
  unfold unlinked at h
  split at h
  · cases h
  · exact h

theorem publishes_destroyPool (hi : Inv s) (h : s.step (.destroyPool p k) = some s') :
    Publishes s (.destroyPool p k) s' := by
  dsimp only [step] at h
  split at h
  · cases h
  · rename_i publisher hrun
    have hp := running_get hrun
    split at h
    · cases h
    · rename_i pool hlive
      have hk := livePool_get hlive
      cases h
      refine .of_runs hi rfl rfl (fun _ _ hl => unlinked_some hl) (fun q j pool' hq => .inr ?_) fun q j old hq => ?_
      · have hq := (poolAt_setPool hp hk).symm.trans hq
        split at hq
        · rename_i hqj
          cases hq
          exact ⟨pool, by rw [hqj.1, hqj.2, poolAt_of_get hp, hk], rfl⟩
        · exact ⟨pool', hq, rfl⟩
      · by_cases hqj : q = p ∧ j = k
        · rw [hqj.1, hqj.2, poolAt_of_get hp, hk] at hq
          cases hq
          exact ⟨_, (poolAt_setPool hp hk).trans (if_pos hqj), rfl⟩
        · exact ⟨old, (poolAt_setPool hp hk).trans ((if_neg hqj).trans hq), rfl⟩

/-! ### Registrations -/

theorem rebinds_some {pool : Pool} {op : PoolOp} {memfd : Option Memfd} (h : rebinds p k pool op = some (path, memfd)) :
    ∃ b euid pid socket block, op = .register b euid pid socket ∧ pool.allBlocks[b]? = some block ∧
      ¬ block.nativeHandle < 0 ∧ pool.registeredBlocks block.blockId = none ∧
      ∀ m, memfd = some m → socket = .ok () ∧
      m = { process := p, pool := k, block := b, size := block.mappedSize } := by
  unfold rebinds at h
  split at h
  · rename_i b euid pid socket
    split at h
    · cases h
    · rename_i block hb
      split at h
      · cases h
      · rename_i hfirst
        push Not at hfirst
        cases h
        refine ⟨b, euid, pid, socket, block, rfl, hb, Int.not_lt.2 hfirst.1, by simpa using hfirst.2, fun m hm => ?_⟩
        cases socket with
        | ok u => cases hm; exact ⟨rfl, rfl⟩
        | error x => cases hm
  · cases h

theorem binds_call {op : PoolOp} (hp : s.poolAt p k = some pool) :
    s.binds (.call p k op) = some (path, m) ↔ rebinds p k pool.run.pool op = some (path, some m) := by
  rw [binds, hp, Option.bind_some]
  split
  · rename_i path' m' hre
    rw [hre, Option.some_inj, Option.some_inj, Prod.mk.injEq, Prod.mk.injEq, Option.some_inj]
  · rename_i hno
    exact ⟨fun h => (by cases h), fun h => absurd h (hno path m)⟩

theorem rebound_some {listeners : String → Option Memfd} {change : Option (String × Option Memfd)}
    (h : rebound listeners change path = some m) : listeners path = some m ∨ change = some (path, some m) := by
  unfold rebound at h
  split at h
  · rename_i bound memfd
    by_cases hpath : path = bound
    · subst hpath
      rw [Function.update_self] at h
      exact .inr (by rw [h])
    · rw [Function.update_of_ne hpath] at h
      exact .inl h
  · exact .inl h

theorem registerBlock_first {pool : Pool} {b : Nat} {block : SharedBufferBlock} (euid : Nat) (pid : Int)
    (hb : pool.allBlocks[b]? = some block) (hfd : ¬ block.nativeHandle < 0)
    (hnone : pool.registeredBlocks block.blockId = none) :
    (pool.registerBlock b euid pid (.ok ())).1.registeredBlocks = Function.update pool.registeredBlocks block.blockId
      (some (blockSocketPath euid pid block.blockId block.nativeHandle)) := by
  unfold Pool.registerBlock
  rw [hb]
  dsimp only
  rw [if_neg hfd, hnone]

/-- The memfd of a first registration is not that of an earlier one. -/
theorem not_registered {b : Nat} {block : SharedBufferBlock} (hp : s.poolAt p k = some pool)
    (hb : pool.run.pool.allBlocks[b]? = some block) (hnone : pool.run.pool.registeredBlocks block.blockId = none)
    (size : Nat) : ¬ s.Registered { process := p, pool := k, block := b, size := size } := by
  intro h
  obtain ⟨pool₁, identity, path, hp₁, hid, hr⟩ := h.registered
  rw [hp] at hp₁
  cases hp₁
  rw [IdRun.identities_get hb] at hid
  cases hid
  rw [hnone] at hr
  cases hr

theorem publishes_call {op : PoolOp} (hi : Inv s) (h : s.step (.call p k op) = some s') :
    Publishes s (.call p k op) s' := by
  dsimp only [step] at h
  split at h
  · cases h
  rename_i publisher hrun
  have hp := running_get hrun
  split at h
  · cases h
  rename_i pool hlive
  have hk := livePool_get hlive
  have hpool : s.poolAt p k = some pool := (poolAt_of_get hp).trans hk
  split at h
  swap
  · cases h
  obtain ⟨run, hstep, rfl⟩ := Option.map_eq_some_iff.1 h
  have hkept {q j : Nat} {old : PublisherPool} (hq : s.poolAt q j = some old) :
      ∃ new, (s.setPool p k publisher { pool with run := run }).poolAt q j = some new ∧
        Pool.Extends old.run.pool new.run.pool := by
    by_cases hqj : q = p ∧ j = k
    · rw [hqj.1, hqj.2, hpool] at hq
      cases hq
      exact ⟨_, (poolAt_setPool hp hk).trans (if_pos hqj), .step hstep⟩
    · exact ⟨old, (poolAt_setPool hp hk).trans ((if_neg hqj).trans hq), .refl _⟩
  refine ⟨rfl, fun {q j new} hq => ?_, hkept, fun {path m} hl => ?_, fun {path m} hb => ?_⟩
  · have hq := (poolAt_setPool hp hk).symm.trans hq
    split at hq
    · cases hq
      exact .next (hi.pools hpool) trivial hstep
    · exact hi.pools hq
  · rw [binds_call hpool]
    exact rebound_some hl
  · have hre := (binds_call hpool).1 hb
    obtain ⟨b, euid, pid, socket, block, rfl, hblock, hfd, hnone, hm⟩ := rebinds_some hre
    obtain ⟨rfl, rfl⟩ := hm _ rfl
    have hstored := (hi.pools hpool).inv.pool.stored hblock
    refine ⟨?_, not_registered hpool hblock hnone _, ?_, hstored.small, ?_⟩
    · dsimp only
      rw [hre]
      exact Function.update_self ..
    · show kSharedBufferPayloadOffset ≤ block.mappedSize
      rw [hstored.mapped]
      exact Nat.le_add_right ..
    · obtain ⟨new, hnew, hext⟩ := hkept hpool
      cases hstep
      have hat := (poolAt_setPool hp hk).symm.trans hnew
      rw [if_pos ⟨rfl, rfl⟩] at hat
      cases hat
      have hreg := (congrFun (registerBlock_first euid pid hblock hfd hnone) block.blockId).trans
        (Function.update_self ..)
      exact ⟨_, _, _, hnew, hext.identities (IdRun.identities_get hblock), hreg⟩

theorem step_publishes (hi : Inv s) (h : s.step event = some s') :
    Publishes s event s' ∨ ∃ c, event = .importBlock c := by
  cases event with
  | spawn euid pid => exact .inl (publishes_spawn hi h)
  | exit p => exact .inl (publishes_exit hi h)
  | createPool p => exact .inl (publishes_createPool hi h)
  | destroyPool p k => exact .inl (publishes_destroyPool hi h)
  | call p k op => exact .inl (publishes_call hi h)
  | importBlock c => exact .inr ⟨c, rfl⟩

/-! ### The cache -/

variable {events : List Event} {c : ImportCall} {key : CacheKey} {block : SharedBufferImportedBlock}

theorem Entry.mono (hsub : s'.subscriber = s.subscriber) (hreg : s.Registered m → s'.Registered m)
    (h : s.Entry key block m) : s'.Entry key block m :=
  ⟨by rw [hsub]; exact h.memfd, h.size, h.path, hreg h.registered⟩

theorem Inv.init : Inv {} where
  backing := rfl
  pools h := by cases h
  listeners h := by cases h
  cache h := by cases h

theorem Inv.publishes (hi : Inv s) (h : Publishes s event s') : Inv s' where
  backing := by rw [h.subscriber]; exact hi.backing
  pools := h.pools
  listeners hl := by
    rcases h.listeners hl with hold | hnew
    · exact (hi.listeners hold).mono h.kept
    · exact (h.binds hnew).2.2
  cache hc := by
    rw [h.subscriber] at hc
    obtain ⟨m, he⟩ := hi.cache hc
    exact ⟨m, he.mono h.subscriber fun hr => hr.mono h.kept⟩

theorem Registered.withSubscriber (sub : Subscriber) (h : s.Registered m) :
    Registered { s with subscriber := sub } m :=
  ⟨h.large, h.small, h.registered⟩

/-- A mapping in the cache stays what it is while the subscriber maps further regions. -/
theorem Entry.grow {sub : Subscriber} (hpre : s.subscriber.backing <+: sub.backing) (h : s.Entry key block m) :
    Entry { s with subscriber := sub } key block m :=
  ⟨Subscriber.memfdOf_mono hpre h.memfd, h.size, h.path, h.registered.withSubscriber sub⟩

theorem Inv.imports {sub : Subscriber} {r : Except Failure SharedBufferImportedBlock} (hi : Inv s)
    (h : s.subscriber.Imported s.listeners c sub r) : Inv { s with subscriber := sub } := by
  have hold (hcache : sub.world.cache = s.subscriber.world.cache) (hpre : s.subscriber.backing <+: sub.backing)
      {key : CacheKey} {block : SharedBufferImportedBlock} (hc : sub.world.cache key = some block) :
      ∃ m, Entry { s with subscriber := sub } key block m := by
    rw [hcache] at hc
    obtain ⟨m, he⟩ := hi.cache hc
    exact ⟨m, he.grow hpre⟩
  have hlisten {path : String} {m : Memfd} (hl : s.listeners path = some m) :
      Registered { s with subscriber := sub } m := (hi.listeners hl).withSubscriber sub
  cases h with
  | found _ _ hcache hback hb => exact ⟨hb, hi.pools, hlisten, hold hcache (hback ▸ List.prefix_rfl)⟩
  | rejected _ _ hcache hback hb => exact ⟨hb, hi.pools, hlisten, hold hcache (hback ▸ List.prefix_rfl)⟩
  | refused _ _ hcache hpre hb => exact ⟨hb, hi.pools, hlisten, hold hcache hpre⟩
  | @created block m _ hcr hl hm hsize hcache hpre hb =>
    refine ⟨hb, hi.pools, hlisten, fun {key block'} hc => ?_⟩
    dsimp only at hc
    rw [hcache] at hc
    by_cases hkey : key = c.descriptor.key
    · subst hkey
      rw [Function.update_self] at hc
      cases hc
      obtain ⟨m', hm', hsize'⟩ := hcr.receives.size
      rw [hl] at hm'
      cases hm'
      exact ⟨m, hm, hsize.trans hsize'.symm, hcr.receives.path, hlisten hl⟩
    · rw [Function.update_of_ne hkey] at hc
      obtain ⟨m', he⟩ := hi.cache hc
      exact ⟨m', he.grow hpre⟩

theorem Inv.next (hi : Inv s) (h : s.step event = some s') : Inv s' := by
  obtain hpub | ⟨c, rfl⟩ := step_publishes hi h
  · exact hi.publishes hpub
  · cases h
    exact hi.imports (Subscriber.importBlock_imported hi.backing rfl)

/-! ### Transparency -/

theorem Inv.transparent (hi : Inv s) (hcur : s.Current) (c : ImportCall) : s.Transparent c := by
  intro s₀ block₀ h₀
  have hb : s.subscriber.forget.Backed := hi.backing
  cases Subscriber.importBlock_imported hb h₀ with
  | found hc => cases hc
  | @created _ m _ hcr hl hm =>
    generalize h₁ : s.subscriber.importBlock s.listeners c = q
    obtain ⟨s₁, r⟩ := q
    cases Subscriber.importBlock_imported hi.backing h₁ with
    | @found block hc _ _ hback =>
      refine ⟨s₁, block, rfl, m, hm, ?_⟩
      exact Subscriber.memfdOf_mono (hback ▸ List.prefix_rfl) (hcur _ _ _ hc hl)
    | rejected hc hno =>
      obtain ⟨m', he⟩ := hi.cache hc
      have hmem := hcur _ _ _ hc hl
      have hmm : m' = m := Option.some_inj.1 (he.memfd.symm.trans hmem)
      obtain ⟨m'', hm'', hsize⟩ := hcr.receives.size
      rw [hl] at hm''
      cases hm''
      rw [hmem, ← hl] at hno
      refine absurd ⟨hcr.receives.path.1, hcr.key, fun hnull => ?_, ?_, hcr.checks⟩ hno
      · rw [Subscriber.memfdOf, hnull] at hmem
        cases hmem
      · rw [he.size, hmm, hsize]
    | refused _ hno => exact absurd hcr hno
    | @created block m' _ _ hl' hm' =>
      rw [hl] at hl'
      cases hl'
      exact ⟨s₁, block, rfl, m, hm, hm'⟩

/-- A call for what `key` names, with the header it asks for in every memfd. -/
def probe (key : CacheKey) (m : Memfd) : ImportCall where
  env := { fstat := some 0 }
  view _ _ := { ipcUid := 1 }
  descriptor :=
    { size := 0, elementTypeName := uint8TypeName, sharedBufferPid := key.pid, sharedBufferBlockId := key.blockId,
      sharedBufferBlockSize := UInt64.ofNat m.size, sharedBufferSocketPath := key.ipcName, ipcUid := 1 }

theorem creates_probe (hr : s.Registered m) (hp : key.ipcName ≠ "" ∧ key.ipcName.utf8ByteSize < sunPathSize) :
    Creates ((probe key m).envAt (some m) (some m)) (probe key m).descriptor := by
  have hsmall : m.size < 2 ^ 63 := by
    have := hr.small
    simp only [offMax] at this
    omega
  refine ⟨rfl, rfl, rfl, rfl, ⟨⟨3, ?_⟩, ⟨_, rfl, Int64.zero_le_ofNat_of_lt hsmall, rfl⟩, rfl⟩,
    ⟨?_, UInt64.zero_le, fun h => ?_, rfl, rfl, rfl, rfl⟩⟩
  · unfold receiveFdFromSocket
    rw [if_neg (by push Not; exact hp)]
    rfl
  · rw [UInt64.le_iff_toNat_le, toNat_payloadOffset]
    show _ ≤ (UInt64.ofNat m.size).toNat
    rw [UInt64.toNat_ofNat', Nat.mod_eq_of_lt (by omega)]
    exact hr.large
  · cases congrArg UInt64.toNat h

theorem Inv.current (hi : Inv s) (h : ∀ c, s.Transparent c) : s.Current := by
  intro key block m hc hl
  obtain ⟨m', he⟩ := hi.cache hc
  have hcr := creates_probe (hi.listeners hl) he.path
  have hb : s.subscriber.forget.Backed := hi.backing
  generalize h₀ : s.subscriber.forget.importBlock s.listeners (probe key m) = q
  obtain ⟨s₀, r⟩ := q
  cases Subscriber.importBlock_imported hb h₀ with
  | found hc => cases hc
  | rejected hc => cases hc
  | refused _ hno =>
    refine absurd ?_ hno
    show Creates ((probe key m).envAt (s.listeners key.ipcName) (s.listeners key.ipcName)) _
    rw [hl]
    exact hcr
  | @created _ m₀ _ _ hl₀ hm₀ =>
    obtain ⟨s₁, block₁, h₁, m₁, hm, hm₁⟩ := h (probe key m) _ _ h₀
    have hm₀₁ : m₁ = m := by
      rw [hm₀] at hm
      cases hm
      exact Option.some_inj.1 (hl₀.symm.trans hl)
    cases Subscriber.importBlock_imported hi.backing h₁ with
    | found hc₁ _ _ hback =>
      have hblock : block = block₁ := Option.some_inj.1 (hc.symm.trans hc₁)
      rw [hblock, ← hm₀₁, Subscriber.memfdOf, ← hback]
      exact hm₁
    | created hc₁ =>
      have hnone : s.subscriber.world.cache key = none := hc₁
      rw [hc] at hnone
      cases hnone

/-- A call is transparent in a state exactly if the cache is current there. -/
theorem Inv.transparent_iff_current (hi : Inv s) : (∀ c, s.Transparent c) ↔ s.Current :=
  ⟨hi.current, hi.transparent⟩

theorem Inv.current_publishes (hi : Inv s) (hcur : s.Current) (h : Publishes s event s') :
    s'.Current ↔ s.KeepsIdentity event := by
  constructor
  · intro hcur' path m hb key hkey
    cases hc : s.subscriber.world.cache key with
    | none => rfl
    | some block =>
      -- the memfd mapped has been registered before, the one bound has not
      obtain ⟨m', he⟩ := hi.cache hc
      obtain ⟨hl, hnew, -⟩ := h.binds hb
      have hmem := hcur' key block m (by rw [h.subscriber]; exact hc) (by rw [hkey]; exact hl)
      rw [h.subscriber, he.memfd] at hmem
      cases hmem
      exact absurd he.registered hnew
  · intro hkeep key block m hc hl
    rw [h.subscriber] at hc ⊢
    rcases h.listeners hl with hold | hnew
    · exact hcur key block m hc hold
    · rw [hkeep _ m hnew key rfl] at hc
      cases hc

theorem current_imports {sub : Subscriber} {r : Except Failure SharedBufferImportedBlock} (hcur : s.Current)
    (h : s.subscriber.Imported s.listeners c sub r) : Current { s with subscriber := sub } := by
  have hold (hcache : sub.world.cache = s.subscriber.world.cache) (hpre : s.subscriber.backing <+: sub.backing) :
      Current { s with subscriber := sub } := fun key block m hc hl => by
    dsimp only at hc
    rw [hcache] at hc
    exact Subscriber.memfdOf_mono hpre (hcur key block m hc hl)
  cases h with
  | found _ _ hcache hback => exact hold hcache (hback ▸ List.prefix_rfl)
  | rejected _ _ hcache hback => exact hold hcache (hback ▸ List.prefix_rfl)
  | refused _ _ hcache hpre => exact hold hcache hpre
  | @created block m _ _ hl hm _ hcache hpre =>
    intro key block' m' hc hl'
    dsimp only at hc
    rw [hcache] at hc
    by_cases hkey : key = c.descriptor.key
    · subst hkey
      rw [Function.update_self] at hc
      cases hc
      have hmm : m = m' := Option.some_inj.1 (hl.symm.trans hl')
      exact hmm ▸ hm
    · rw [Function.update_of_ne hkey] at hc
      exact Subscriber.memfdOf_mono hpre (hcur key block' m' hc hl')

theorem Inv.current_step (hi : Inv s) (hcur : s.Current) (h : s.step event = some s') :
    s'.Current ↔ s.KeepsIdentity event := by
  obtain hpub | ⟨c, rfl⟩ := step_publishes hi h
  · exact hi.current_publishes hcur hpub
  · cases h
    refine iff_of_true (current_imports hcur (Subscriber.importBlock_imported hi.backing rfl)) fun path m hb => ?_
    cases hb

theorem current_init : Current {} := fun key block m hc => by cases hc

/-- In every state of a run every call is transparent, exactly if no step of the run binds a path anew that the
subscriber has a mapping under. -/
theorem transparent_iff (hr : Machine.run step {} events = some s) :
    (∀ before, before <+: events → ∀ s', Machine.run step {} before = some s' → ∀ c, s'.Transparent c) ↔
      Machine.Along step KeepsIdentity {} events := by
  rw [Machine.along_iff (fun _ _ _ hi hs => Inv.next hi hs) (fun _ _ _ hi hc hs => Inv.current_step hi hc hs)
    Inv.init current_init hr]
  have hinv {before : List Event} {s' : System} (h : Machine.run step {} before = some s') : Inv s' :=
    Machine.ReachIf.inv (fun s he => by subst he; exact Inv.init) (fun _ _ _ hi _ hs => Inv.next hi hs)
      (Machine.Reach.run (.start rfl) h)
  refine forall₂_congr fun before _ => forall₂_congr fun s' h => ?_
  exact (hinv h).transparent_iff_current

/-- The header of a memfd as it is. -/
def header (s : System) (m : Memfd) : SharedBufferControlHeader :=
  match (s.poolAt m.process m.pool).bind fun pool => pool.run.pool.allBlocks[m.block]? with
  | some block => block.control
  | none => {}

/-- Process 0 sets a pool up and publishes its first block. -/
def publish (k : Nat) (fd : Int) (uid : UInt64) : List Event :=
  [.createPool 0, .call 0 k (.allocate 4 { mapping := .ok fd, uid := uid }), .call 0 k (.register 0 1000 7 (.ok ())),
    .call 0 k (.markPublished 0 10)]

/-- The import of that block. -/
def importing (s : System) (fd : Int) (uid : UInt64) : ImportCall where
  env := { fstat := some 0 }
  view m _ := s.header m
  descriptor :=
    { size := 4, elementTypeName := uint8TypeName, sharedBufferPid := 7, sharedBufferBlockId := 0,
      sharedBufferBlockSize := 68, sharedBufferSocketPath := blockSocketPath 1000 7 0 fd, ipcUid := uid }

def published : System := (Machine.run step {} (.spawn 1000 7 :: publish 0 5 1)).getD {}

/-- The pool is destroyed once its block has been imported, and the process makes another one. -/
def recreate (fd : Int) : List Event :=
  .spawn 1000 7 :: publish 0 5 1 ++ .importBlock (published.importing 5 1) :: .destroyPool 0 0 :: publish 1 fd 2

def recreated (fd : Int) : System := (Machine.run step {} (recreate fd)).getD {}

/-- A step that binds nothing. -/
theorem along_idle {event : Event} {events : List Event} (h : s.step event = some s') (hb : s.binds event = none)
    (hrest : Machine.Along step KeepsIdentity s' events) : Machine.Along step KeepsIdentity s (event :: events) := by
  refine (Machine.along_cons h).2 ⟨fun path m hsome => ?_, hrest⟩
  rw [hb] at hsome
  cases hsome

/-- A step that binds a path nothing in the cache has. -/
theorem along_unused {event : Event} {events : List Event} {path : String} {m : Memfd} (h : s.step event = some s')
    (hb : s.binds event = some (path, m))
    (hnone : ∀ key : CacheKey, key.ipcName = path → s.subscriber.world.cache key = none)
    (hrest : Machine.Along step KeepsIdentity s' events) : Machine.Along step KeepsIdentity s (event :: events) := by
  refine (Machine.along_cons h).2 ⟨fun path' m' hsome => ?_, hrest⟩
  rw [hb] at hsome
  cases hsome
  exact hnone

/-- With another descriptor number the second pool binds a path of its own. -/
theorem keeps_recreate : Machine.Along step KeepsIdentity {} (recreate 8) := by
  refine along_idle rfl rfl (along_idle rfl rfl (along_idle rfl rfl ?_))
  refine along_unused rfl rfl (fun _ _ => rfl) ?_
  refine along_idle rfl rfl (along_idle rfl rfl (along_idle rfl rfl (along_idle rfl rfl (along_idle rfl rfl ?_))))
  refine along_unused rfl rfl (fun key hkey => ?_) (along_idle rfl rfl trivial)
  refine Function.update_of_ne (fun h => ?_) _ _
  rw [h] at hkey
  exact absurd hkey (by decide)

theorem transparent_iff_recreated : ∃ s, Machine.run step {} (recreate 8) = some s ∧ s.subscriber.backing.length = 1 ∧
    ∀ c, s.Transparent c :=
  ⟨recreated 8, rfl, rfl, (transparent_iff (s := recreated 8) rfl).2 keeps_recreate _ List.prefix_rfl _ rfl⟩

/-- With the same one it binds the path under which the subscriber maps the block that is gone. -/
theorem recreated_rejected : ∃ s block, Machine.run step {} (recreate 5) = some s ∧
    (s.subscriber.forget.importBlock s.listeners (s.importing 5 2)).2 = .ok block ∧
    (s.subscriber.importBlock s.listeners (s.importing 5 2)).2 =
      .error (.exn (.runtimeError "stale shared memory descriptor publication UID")) ∧
    ¬ s.Transparent (s.importing 5 2) := by
  refine ⟨recreated 5, _, rfl, rfl, rfl, fun h => ?_⟩
  obtain ⟨s₁, block₁, h₁, -⟩ := h _ _ rfl
  cases h₁

end System

end MemfdBuffer.Import
