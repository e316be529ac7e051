import MemfdBuffer.Import.Rendezvous
import MemfdBuffer.PoolBlocks

/-!
# How long a descriptor is good

`create_descriptor_with_endpoint` tells of a block what a subscriber needs to get at it. Until the pool hands the block
out again or is destroyed, or its process ends, an import that meets no failing call gets a mapping of that block,
however late it comes and whatever else goes on.
-/

namespace MemfdBuffer

namespace Import

/-- No call of this import fails. -/
structure Unfailing (c : ImportCall) : Prop where
  alloc (a : Alloc) : c.env.alloc a = true
  socket : c.env.reply.socket = true
  connect : c.env.reply.connect = .ok ()
  received : c.env.reply.received = 1
  control : ∃ fd : Int32, c.env.reply.control = some fd ∧ ¬ fd < 0
  fstat : c.env.fstat.isSome
  mmap : c.env.mmap = .ok ()

/-- `d` is what the owner of a published block tells of it. -/
structure Tells (publisher : Publisher) (pool : Pool) (block : SharedBufferBlock) (d : Message) : Prop where
  registered : pool.registeredBlocks block.blockId = some d.sharedBufferSocketPath
  path : d.sharedBufferSocketPath = blockSocketPath publisher.euid publisher.pid block.blockId block.nativeHandle
  /-- `create_fd_server_socket` has seen to that. -/
  fits : d.sharedBufferSocketPath.utf8ByteSize < sunPathSize
  uid : block.currentUid ≠ 0
  published : block.control.ipcUid = block.currentUid
  descriptor : d.descriptor =
    ownerDescriptor block.payloadSize publisher.pid block d.sharedBufferSocketPath block.currentUid

namespace System

def Offers (s : System) (p k b : Nat) (d : Message) : Prop :=
  ∃ publisher pool block, s.running p = some publisher ∧ publisher.livePool k = some pool ∧
    pool.run.pool.allBlocks[b]? = some block ∧ Tells publisher pool.run.pool block d

/-- The event takes block `b` away from whoever has a descriptor of it. -/
def Withdraws (s : System) (p k b : Nat) : Event → Prop
  | .exit q => q = p
  | .destroyPool q j => q = p ∧ j = k
  | .call q j (.allocate n e) => q = p ∧ j = k ∧ ∃ pool, s.live p k = some pool ∧ (pool.run.pool.allocate n e).2 = .ok b
  | _ => False

/-- Whoever connects to a path is sent an object of the size of the block's mapping. -/
def Weighed (s : System) : Prop :=
  ∀ path m, s.listeners path = some m → ∃ pool block, s.poolAt m.process m.pool = some pool ∧
    pool.run.pool.allBlocks[m.block]? = some block ∧ block.mappedSize = m.size

variable {s s' : System} {event : Event} {p k q j : Nat} {publisher : Publisher} {pool : PublisherPool} {d : Message}
  {c : ImportCall} {m : Memfd} {block : SharedBufferBlock}

/-! ### Pools over events -/

/-- A new process comes behind all others. -/
theorem spawn_get {euid : Nat} {pid : Int} (h : s.step (.spawn euid pid) = some s')
    (hp : s.publishers[q]? = some publisher) :
    s'.publishers[q]? = some publisher := by
  dsimp only [step] at h
  split at h
  · cases h
  · cases h
    exact (List.getElem?_append_left (List.getElem?_eq_some_iff.1 hp).1).trans hp

/-- A pool, alive or not, is called or stays as it is. -/
theorem poolAt_step (h : s.step event = some s') (hp : s.poolAt q j = some pool) :
    ∃ pool', s'.poolAt q j = some pool' ∧ (pool'.run = pool.run ∨ ∃ op, pool.run.step op = some pool'.run) := by
  obtain ⟨publisher, hq, hj⟩ := Option.bind_eq_some_iff.1 hp
  cases event with
  | spawn euid pid => exact ⟨pool, (poolAt_of_get (spawn_get h hq)).trans hj, .inl rfl⟩
  | exit p =>
    dsimp only [step] at h
    split at h
    · cases h
    · rename_i P hP
      cases h
      refine ⟨pool, ?_, .inl rfl⟩
      rw [poolAt_set (running_get hP) rfl]
      split
      · rename_i hqp
        rw [hqp, running_get hP] at hq
        cases hq
        exact hj
      · exact hp
  | createPool p =>
    dsimp only [step] at h
    split at h
    · cases h
    · rename_i P hP
      cases h
      refine ⟨pool, ?_, .inl rfl⟩
      rw [poolAt_set (running_get hP) rfl]
      split
      · rename_i hqp
        rw [hqp, running_get hP] at hq
        cases hq
        exact (List.getElem?_append_left (List.getElem?_eq_some_iff.1 hj).1).trans hj
      · exact hp
  | destroyPool p k =>
    dsimp only [step] at h
    split at h
    · cases h
    · rename_i P hP
      split at h
      · cases h
      · rename_i dying hk
        cases h
        have hat : (s.setPool p k P { dying with alive := false }).poolAt q j =
            if q = p ∧ j = k then some { dying with alive := false } else s.poolAt q j :=
          poolAt_setPool (running_get hP) (livePool_get hk)
        by_cases hqj : q = p ∧ j = k
        · rw [if_pos hqj] at hat
          refine ⟨_, hat, .inl ?_⟩
          rw [hqj.1, hqj.2, poolAt_of_get (running_get hP), livePool_get hk] at hp
          cases hp
          rfl
        · rw [if_neg hqj] at hat
          exact ⟨pool, hat.trans hp, .inl rfl⟩
  | call p k op =>
    dsimp only [step] at h
    split at h
    · cases h
    · rename_i P hP
      split at h
      · cases h
      · rename_i called hk
        split at h
        · obtain ⟨run, hrun, rfl⟩ := Option.map_eq_some_iff.1 h
          have hat : (s.setPool p k P { called with run := run }).poolAt q j =
              if q = p ∧ j = k then some { called with run := run } else s.poolAt q j :=
            poolAt_setPool (running_get hP) (livePool_get hk)
          by_cases hqj : q = p ∧ j = k
          · rw [if_pos hqj] at hat
            rw [hqj.1, hqj.2, poolAt_of_get (running_get hP), livePool_get hk] at hp
            cases hp
            exact ⟨_, hat, .inr ⟨op, hrun⟩⟩
          · rw [if_neg hqj] at hat
            exact ⟨pool, hat.trans hp, .inl rfl⟩
        · cases h
  | importBlock c =>
    cases h
    exact ⟨pool, hp, .inl rfl⟩

/-- A live pool is called or stays as it is, unless its end comes. -/
theorem live_step (h : s.step event = some s') (hp : s.running q = some publisher)
    (hk : publisher.livePool j = some pool)
    (hexit : event ≠ .exit q) (hdestroy : event ≠ .destroyPool q j) :
    ∃ publisher' pool', s'.running q = some publisher' ∧ publisher'.livePool j = some pool' ∧
      publisher'.euid = publisher.euid ∧ publisher'.pid = publisher.pid ∧
        (pool'.run = pool.run ∨ ∃ op, event = .call q j op ∧ pool.run.step op = some pool'.run) := by
  cases event with
  | spawn euid pid =>
    refine ⟨publisher, pool, ?_, hk, rfl, rfl, .inl rfl⟩
    rw [running, spawn_get h (running_get hp), Option.filter_some, if_pos (running_alive hp)]
  | exit p =>
    dsimp only [step] at h
    split at h
    · cases h
    · rename_i P hP
      cases h
      refine ⟨publisher, pool, ?_, hk, rfl, rfl, .inl rfl⟩
      rw [running_set hP rfl, if_neg (fun hqp => hexit (by rw [hqp])), hp]
  | createPool p =>
    dsimp only [step] at h
    split at h
    · cases h
    · rename_i P hP
      cases h
      by_cases hqp : q = p
      · rw [hqp, hP] at hp
        cases hp
        refine ⟨{ publisher with pools := publisher.pools ++ [{}] }, pool, ?_, ?_, rfl, rfl, .inl rfl⟩
        · rw [running_set hP rfl, if_pos hqp, if_pos (running_alive hP)]
        · have hget := livePool_get hk
          rw [Publisher.livePool, List.getElem?_append_left (List.getElem?_eq_some_iff.1 hget).1]
          exact hk
      · refine ⟨publisher, pool, ?_, hk, rfl, rfl, .inl rfl⟩
        rw [running_set hP rfl, if_neg hqp, hp]
  | destroyPool p k =>
    dsimp only [step] at h
    split at h
    · cases h
    · rename_i P hP
      split at h
      · cases h
      · rename_i dying hdying
        cases h
        by_cases hqp : q = p
        · rw [hqp, hP] at hp
          cases hp
          have hjk : j ≠ k := fun hjk => hdestroy (by rw [hqp, hjk])
          refine ⟨{ publisher with pools := publisher.pools.set k { dying with alive := false } }, pool, ?_, ?_, rfl,
            rfl, .inl rfl⟩
          · rw [running_set hP rfl, if_pos hqp, if_pos (running_alive hP)]
          · rw [Publisher.livePool, List.getElem?_set_ne hjk.symm]
            exact hk
        · refine ⟨publisher, pool, ?_, hk, rfl, rfl, .inl rfl⟩
          rw [running_set hP rfl, if_neg hqp, hp]
  | call p k op =>
    dsimp only [step] at h
    split at h
    · cases h
    · rename_i P hP
      split at h
      · cases h
      · rename_i called hcalled
        split at h
        · obtain ⟨run, hrun, rfl⟩ := Option.map_eq_some_iff.1 h
          by_cases hqp : q = p
          · rw [hqp, hP] at hp
            cases hp
            refine ⟨{ publisher with pools := publisher.pools.set k { called with run := run } },
              if j = k then { called with run := run } else pool, ?_, ?_, rfl, rfl, ?_⟩
            · rw [running_set hP rfl, if_pos hqp, if_pos (running_alive hP)]
            · by_cases hjk : j = k
              · have hget := livePool_get hcalled
                have halive := (Option.filter_eq_some_iff.1 hcalled).2
                rw [if_pos hjk, hjk, Publisher.livePool, List.getElem?_set_self (List.getElem?_eq_some_iff.1 hget).1]
                exact Option.filter_eq_some_iff.2 ⟨rfl, halive⟩
              · rw [if_neg hjk, Publisher.livePool, List.getElem?_set_ne (Ne.symm hjk)]
                exact hk
            · by_cases hjk : j = k
              · rw [hjk, hcalled] at hk
                cases hk
                rw [if_pos hjk, hqp, hjk]
                exact .inr ⟨op, rfl, hrun⟩
              · rw [if_neg hjk]
                exact .inl rfl
          · refine ⟨publisher, pool, ?_, hk, rfl, rfl, .inl rfl⟩
            rw [running_set hP rfl, if_neg hqp, hp]
        · cases h
  | importBlock c =>
    cases h
    exact ⟨publisher, pool, hp, hk, rfl, rfl, .inl rfl⟩

/-! ### What is served -/

theorem Weighed.next (hi : Inv s) (hw : Weighed s) (h : s.step event = some s') : Weighed s' := by
  have hkeep {n p k : Nat} {pool : PublisherPool} {block : SharedBufferBlock} (hp : s.poolAt p k = some pool)
      (hb : pool.run.pool.allBlocks[n]? = some block) : ∃ pool' block', s'.poolAt p k = some pool' ∧
        pool'.run.pool.allBlocks[n]? = some block' ∧ block'.mappedSize = block.mappedSize := by
    obtain ⟨pool', hp', hrun | ⟨op, hop⟩⟩ := poolAt_step h hp
    · exact ⟨pool', block, hp', by rw [hrun]; exact hb, rfl⟩
    · obtain ⟨block', hb', hsize⟩ := (hi.pools hp).inv.mappedSize hop hb
      exact ⟨pool', block', hp', hb', hsize⟩
  intro path m hl
  have hold : s.listeners path = some m ∨ s.binds event = some (path, m) := by
    obtain hpub | ⟨c, rfl⟩ := step_publishes hi h
    · exact hpub.listeners hl
    · cases h
      exact .inl hl
  rcases hold with hold | hnew
  · obtain ⟨pool, block, hp, hb, hsize⟩ := hw path m hold
    obtain ⟨pool', block', hp', hb', hsize'⟩ := hkeep hp hb
    exact ⟨pool', block', hp', hb', hsize'.trans hsize⟩
  · cases event with
    | call p k op =>
      obtain ⟨pool, hp, -⟩ := Option.bind_eq_some_iff.1 hnew
      obtain ⟨b, euid, pid, socket, block, -, hb, -, -, hm⟩ := rebinds_some ((binds_call hp).1 hnew)
      obtain ⟨-, rfl⟩ := hm m rfl
      exact hkeep hp hb
    | _ => cases hnew

/-- A descriptor is good until the block is taken away. -/
theorem Offers.next (hi : Inv s) (ho : s.Offers p k b d) (hw : ¬ s.Withdraws p k b event) (h : s.step event = some s') :
    s'.Offers p k b d := by
  obtain ⟨publisher, pool, block, hp, hk, hb, ht⟩ := ho
  have hpool : s.poolAt p k = some pool := (poolAt_of_get (running_get hp)).trans (livePool_get hk)
  obtain ⟨publisher', pool', hp', hk', heuid, hpid, hrun | ⟨op, rfl, hop⟩⟩ :=
    live_step h hp hk (fun he => hw (by rw [he]; rfl)) fun he => hw (by rw [he]; exact ⟨rfl, rfl⟩)
  · refine ⟨publisher', pool', block, hp', hk', by rw [hrun]; exact hb, ?_, ?_, ht.fits, ht.uid, ht.published, ?_⟩
    · rw [hrun]
      exact ht.registered
    · rw [heuid, hpid]
      exact ht.path
    · rw [hpid]
      exact ht.descriptor
  · obtain ⟨block', hb', hstays⟩ := (hi.pools hpool).inv.stays hop hb fun n e hn hok => by
      subst hn
      exact hw ⟨rfl, rfl, pool, live_get hp hk, hok⟩
    have huid := hstays.currentUid ht.uid
    refine ⟨publisher', pool', block', hp', hk', hb', ?_, ?_, ht.fits, by rw [huid]; exact ht.uid, ?_, ?_⟩
    · rw [hstays.blockId]
      exact (Pool.Extends.step hop).registered ht.registered
    · rw [heuid, hpid, hstays.blockId, hstays.nativeHandle]
      exact ht.path
    · rw [huid]
      rcases hstays.ipcUid with h | h
      · exact h.trans ht.published
      · exact h
    · rw [hpid, hstays.payloadSize, huid, ht.descriptor, ownerDescriptor, ownerDescriptor, hstays.blockId,
        hstays.mappedSize]

/-! ### The import -/

/-- The path of an offer leads to the block, and the object there has its size. -/
theorem offer_served (ha : Apart s) (hw : Weighed s) (hp : s.running p = some publisher)
    (hk : publisher.livePool k = some pool) (hb : pool.run.pool.allBlocks[b]? = some block)
    (ht : Tells publisher pool.run.pool block d) : s.listeners d.sharedBufferSocketPath =
      some { process := p, pool := k, block := b, size := block.mappedSize } := by
  have hr : s.registeredAt p k block.blockId = some d.sharedBufferSocketPath := by
    rw [registeredAt, live_get hp hk]
    exact ht.registered
  obtain ⟨P, b', fd, m, hP, hid, hpath, hm, rfl, rfl, rfl⟩ := ha.serves hr
  rw [hp] at hP
  cases hP
  obtain ⟨-, -, -, rfl⟩ := blockSocketPath_parts (hpath.symm.trans ht.path)
  have hself : s.identityAt m.process m.pool b = some (block.blockId, block.nativeHandle) := by
    rw [identityAt, live_get hp hk]
    exact IdRun.identities_get hb
  obtain ⟨-, rfl⟩ := ha.descriptors hid hself
  obtain ⟨pool', block', hpool', hb', hsize⟩ := hw _ m hm
  have hpool : s.poolAt m.process m.pool = some pool := (poolAt_of_get (running_get hp)).trans (livePool_get hk)
  rw [hpool] at hpool'
  cases hpool'
  rw [hb] at hb'
  cases hb'
  rw [hm, hsize]

theorem header_of_block (hp : s.poolAt p k = some pool) (hb : pool.run.pool.allBlocks[b]? = some block) (size : Nat) :
    s.header { process := p, pool := k, block := b, size := size } = block.control := by
  simp only [header, hp, Option.bind_some, hb]

/-- What an import of the offer asks for is there. -/
theorem creates_offer (hu : Unfailing c) (ht : Tells publisher pool.run.pool block c.descriptor)
    (hstored : Shaped block) (hview : ∀ access, c.view m access = block.control) (hm : m.size = block.mappedSize) :
    Creates (c.envAt (some m) (some m)) c.descriptor := by
  have hsmall := hstored.small
  have hmapped := hstored.mapped
  simp only [offMax] at hsmall
  have hsize : c.descriptor.size.toNat = block.payloadSize := congrArg SharedBufferDescriptor.size ht.descriptor
  have hblock : c.descriptor.sharedBufferBlockSize.toNat = block.mappedSize :=
    congrArg SharedBufferDescriptor.sharedBufferBlockSize ht.descriptor
  have huid : c.descriptor.ipcUid = block.currentUid := congrArg SharedBufferDescriptor.ipcUid ht.descriptor
  have hdescribes := hstored.describes
  simp only [SharedBufferControlHeader.describes, Bool.and_eq_true, beq_iff_eq] at hdescribes
  have hoff : payloadOffset ≤ c.descriptor.sharedBufferBlockSize := by
    rw [UInt64.le_iff_toNat_le, toNat_payloadOffset, hblock, hmapped]
    exact Nat.le_add_right ..
  refine ⟨hu.alloc _, hu.alloc _, hu.alloc _, hu.alloc _, ⟨?_, ?_, hu.mmap⟩, ⟨hoff, ?_, ?_, ?_, ?_, ?_, ?_⟩⟩
  · obtain ⟨fd, hfd, hpos⟩ := hu.control
    refine ⟨fd, ?_⟩
    have hpath : ¬ (c.descriptor.sharedBufferSocketPath = "" ∨
        sunPathSize ≤ c.descriptor.sharedBufferSocketPath.utf8ByteSize) := by
      rintro (hempty | hlong)
      · exact blockSocketPath_ne _ _ _ _ (ht.path.symm.trans hempty)
      · exact absurd ht.fits (Nat.not_lt.2 hlong)
    simp only [receiveFdFromSocket, ImportCall.envAt, hu.socket, hu.connect, hu.received, hfd,
      Option.isSome_some, if_true]
    rw [if_neg hpath, if_neg (by decide), if_neg (by decide), if_neg hpos]
  · obtain ⟨size, hfstat⟩ := Option.isSome_iff_exists.1 hu.fstat
    refine ⟨Int64.ofNat m.size, ?_, Int64.zero_le_ofNat_of_lt (by omega), ?_⟩
    · simp only [ImportCall.envAt, Option.bind_some, hfstat, Option.map_some]
    · rw [hm, ← hblock]
      exact Int64.toUInt64_ofNat'.trans UInt64.ofNat_toNat
  · rw [← UInt64.not_lt, room_lt hoff, hblock, hsize, hmapped]
    omega
  · rw [huid]
    exact ht.uid
  · exact (congrArg SharedBufferControlHeader.magic (hview .magic)).trans hdescribes.1.1
  · exact (congrArg SharedBufferControlHeader.abiVersion (hview .abiVersion)).trans hdescribes.1.2
  · rw [hsize]
    exact (congrArg SharedBufferControlHeader.payloadSize (hview .payloadSize)).trans hdescribes.2
  · rw [huid]
    exact (congrArg SharedBufferControlHeader.ipcUid (hview .ipcUid)).trans ht.published

/-- What holds of publishers and subscriber where no path is bound anew that the subscriber has a mapping under. -/
structure Orderly (s : System) : Prop where
  inv : Inv s
  apart : Apart s
  weighed : Weighed s
  current : s.Current

namespace Orderly

theorem init : Orderly {} := ⟨.init, .init, fun _ _ h => (by cases h), current_init⟩

theorem next (h : Orderly s) (hk : s.KeepsIdentity event) (hs : s.step event = some s') : Orderly s' :=
  ⟨h.inv.next hs, h.apart.next hs, h.weighed.next h.inv hs, (h.inv.current_step h.current hs).2 hk⟩

theorem of_reach (h : Machine.ReachIf step (· = {}) KeepsIdentity s) : Orderly s :=
  h.inv (P := Orderly) (fun _ h => by rw [h]; exact init) fun _ _ _ h hk hs => h.next hk hs

/-- An import of an offer that stands gets a mapping of the block, be it from the cache or from the broker. -/
theorem imports (h : Orderly s) (ho : s.Offers p k b c.descriptor) (hu : Unfailing c)
    (hview : ∀ m access, c.view m access = s.header m) :
    ∃ sub imported m, s.subscriber.importBlock s.listeners c = (sub, .ok imported) ∧ sub.memfdOf imported = some m ∧
      m.process = p ∧ m.pool = k ∧ m.block = b ∧ imported.mappedSize = c.descriptor.sharedBufferBlockSize := by
  obtain ⟨publisher, pool, block, hp, hk, hb, ht⟩ := ho
  have hpool : s.poolAt p k = some pool := (poolAt_of_get (running_get hp)).trans (livePool_get hk)
  have hshape := ((h.inv.pools hpool).inv.pool.stored hb).toShaped
  have hl := offer_served h.apart h.weighed hp hk hb ht
  have hcr := creates_offer hu ht hshape (fun access => (hview _ access).trans (header_of_block hpool hb _))
    (rfl : Memfd.size { process := p, pool := k, block := b, size := block.mappedSize } = _)
  obtain ⟨sub, r, heq⟩ : ∃ sub r, s.subscriber.importBlock s.listeners c = (sub, r) := ⟨_, _, rfl⟩
  cases Subscriber.importBlock_imported h.inv.backing heq with
  | found hc hval hcache hback =>
    refine ⟨sub, _, { process := p, pool := k, block := b, size := block.mappedSize }, heq, ?_, rfl,
      rfl, rfl, hval.size⟩
    exact Subscriber.memfdOf_mono (hback ▸ List.prefix_rfl) (h.current _ _ _ hc hl)
  | rejected hc hno =>
    obtain ⟨m, he⟩ := h.inv.cache hc
    have hmem := h.current _ _ _ hc hl
    cases he.memfd.symm.trans hmem
    rw [hmem, hl] at hno
    refine absurd ⟨hcr.receives.path.1, hcr.key, fun hnull => ?_, ?_, hcr.checks⟩ hno
    · rw [Subscriber.memfdOf, hnull] at hmem
      cases hmem
    · obtain ⟨m', hm', hsize⟩ := hcr.receives.size
      cases hm'
      exact he.size.trans hsize
  | refused _ hno =>
    rw [hl] at hno
    exact absurd hcr hno
  | created _ _ hl' hm hsize =>
    rw [hl] at hl'
    cases hl'
    exact ⟨sub, _, _, heq, hm, rfl, rfl, rfl, hsize⟩

end Orderly

/-- From the publication of a block on its descriptor gets an import a mapping of that block, as long as the block is not
handed out again and its pool and process live; the whole run is one in which no registration takes a cached path. -/
theorem offer_stands {events : List Event} (h : Machine.ReachIf step (· = {}) KeepsIdentity s)
    (ho : s.Offers p k b c.descriptor) (hr : Machine.run step s events = some s')
    (ha : Machine.Along step (fun s event => s.KeepsIdentity event ∧ ¬ s.Withdraws p k b event) s events)
    (hu : Unfailing c) (hview : ∀ m access, c.view m access = s'.header m) :
    ∃ sub imported m, s'.subscriber.importBlock s'.listeners c = (sub, .ok imported) ∧ sub.memfdOf imported = some m ∧
      m.process = p ∧ m.pool = k ∧ m.block = b ∧ imported.mappedSize = c.descriptor.sharedBufferBlockSize := by
  have hreach : Machine.ReachIf step (· = s) (fun s event => s.KeepsIdentity event ∧ ¬ s.Withdraws p k b event) s' :=
    .run (.start rfl) ha hr
  have hall : Orderly s' ∧ s'.Offers p k b c.descriptor := by
    refine hreach.inv (P := fun s => Orderly s ∧ s.Offers p k b c.descriptor) (fun _ h' => ?_)
      fun s event s' hi hok hs => ?_
    · rw [h']
      exact ⟨.of_reach h, ho⟩
    · exact ⟨hi.1.next hok.1 hs, hi.2.next hi.1.inv hok.2 hs⟩
  exact hall.1.imports hall.2 hu hview

/-- The block is freed, and the next allocation makes a new one, as the grace period has not passed. -/
def freed : List Event := [.call 0 0 (.free (some 0)), .call 0 0 (.allocate 4 { mapping := .ok 6, uid := 9 })]

def afterwards : System := (Machine.run step published freed).getD {}

theorem published_reach : Machine.ReachIf step (· = {}) KeepsIdentity published := by
  refine .run (.start rfl) ?_ (rfl : Machine.run step {} (.spawn 1000 7 :: publish 0 5 1) = some published)
  refine along_idle rfl rfl (along_idle rfl rfl (along_idle rfl rfl ?_))
  exact along_unused rfl rfl (fun _ _ => rfl) (along_idle rfl rfl trivial)

theorem published_offers : published.Offers 0 0 0 (importing afterwards 5 1).descriptor :=
  ⟨_, _, _, rfl, rfl, rfl, ⟨rfl, rfl, by decide, by decide, rfl, rfl⟩⟩

theorem offer_stands_freed : ∃ sub imported m,
    afterwards.subscriber.importBlock afterwards.listeners (importing afterwards 5 1) = (sub, .ok imported) ∧
      sub.memfdOf imported = some m ∧ m.process = 0 ∧ m.pool = 0 ∧ m.block = 0 ∧ imported.mappedSize = 68 := by
  refine offer_stands published_reach published_offers (rfl : Machine.run step published freed = some afterwards) ?_
    ⟨fun _ => rfl, rfl, rfl, rfl, ⟨3, rfl, by decide⟩, rfl, rfl⟩ fun _ _ => rfl
  refine (Machine.along_cons rfl).2 ⟨⟨fun path m hb => (by cases hb), fun hw => (by cases hw)⟩, ?_⟩
  refine (Machine.along_cons rfl).2 ⟨⟨fun path m hb => (by cases hb), ?_⟩, trivial⟩
  rintro ⟨-, -, pool, hpool, hok⟩
  cases hpool
  exact absurd hok (by decide)

end System

end Import

end MemfdBuffer
