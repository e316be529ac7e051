import MemfdBuffer.Import.Transparency

/-!
# Where the publishers listen

A socket path names a process, a block ID and a descriptor number. Processes that run have different IDs, and the pools
of one process have different descriptors open, so that no two registrations of pools that are alive share a path. A
process that binds its path, or unlinks it, takes nothing away from another.
-/

namespace MemfdBuffer

open Separator

theorem toList_toString_int_inj {z z' : Int} (h : (toString z).toList = (toString z').toList) : z = z' := by
  have hminus : ∀ n : Nat, '-' ∉ (toString n).toList := notMem_toString rfl
  cases z with
  | ofNat n =>
    cases z' with
    | ofNat m => exact congrArg Int.ofNat (toList_toString_inj h)
    | negSucc m =>
      have h : (toString n).toList = ("-" ++ toString (m + 1)).toList := h
      refine absurd ?_ (hminus n)
      rw [h]
      simp
  | negSucc n =>
    cases z' with
    | ofNat m =>
      have h : ("-" ++ toString (n + 1)).toList = (toString m).toList := h
      refine absurd ?_ (hminus m)
      rw [← h]
      simp
    | negSucc m =>
      have h : ("-" ++ toString (n + 1)).toList = ("-" ++ toString (m + 1)).toList := h
      simp only [String.toList_append, String.reduceToList, List.singleton_append, List.cons.injEq, true_and] at h
      have := toList_toString_inj h
      omega

/-- A path tells all its parts. -/
theorem blockSocketPath_parts {euid euid' : Nat} {pid pid' fd fd' : Int} {id id' : UInt32}
    (h : blockSocketPath euid pid id fd = blockSocketPath euid' pid' id' fd') :
    euid = euid' ∧ pid = pid' ∧ id = id' ∧ fd = fd' := by
  have h := congrArg String.toList h
  unfold blockSocketPath at h
  simp only [String.toList_append, List.append_assoc, String.reduceToList, List.cons_append,
    List.nil_append, List.cons.injEq, true_and] at h
  obtain ⟨heuid, h⟩ := first_inj (c := '_') (by simp) (by simp) h
  obtain ⟨hpid, h⟩ := first_inj (c := '_') (underscore_notMem_int pid) (underscore_notMem_int pid') h
  obtain ⟨hid, h⟩ := first_inj (c := '_') (by simp) (by simp) h
  exact ⟨toList_toString_inj heuid, toList_toString_int_inj hpid, UInt32.toNat_inj.1 (toList_toString_inj hid),
    toList_toString_int_inj (List.append_cancel_right h)⟩

namespace Import

namespace System

/-- The pool, unless it is destroyed or its process has ended. -/
def live (s : System) (p k : Nat) : Option PublisherPool := (s.running p).bind (·.livePool k)

/-- ID and descriptor of a block. -/
def identityAt (s : System) (p k b : Nat) : Option (UInt32 × Int) :=
  (s.live p k).bind fun pool => pool.run.pool.identities[b]?

def registeredAt (s : System) (p k : Nat) (id : UInt32) : Option String :=
  (s.live p k).bind fun pool => pool.run.pool.registeredBlocks id

/-- The path is that of a block with the ID, whose memfd is served there. -/
def Serves (s : System) (p k : Nat) (id : UInt32) (path : String) : Prop :=
  ∃ publisher b fd m, s.running p = some publisher ∧ s.identityAt p k b = some (id, fd) ∧
    path = blockSocketPath publisher.euid publisher.pid id fd ∧ s.listeners path = some m ∧
    m.process = p ∧ m.pool = k ∧ m.block = b

/-- What keeps the publishers apart. -/
structure Apart (s : System) : Prop where
  pids {p q : Nat} {publisher publisher' : Publisher} : s.running p = some publisher → s.running q = some publisher' →
    publisher.pid = publisher'.pid → p = q
  descriptors {p k b j c : Nat} {id id' : UInt32} {fd : Int} : s.identityAt p k b = some (id, fd) →
    s.identityAt p j c = some (id', fd) → k = j ∧ b = c
  serves {p k : Nat} {id : UInt32} {path : String} : s.registeredAt p k id = some path → s.Serves p k id path

variable {s s' : System} {p k b q j c : Nat} {publisher publisher' : Publisher} {pool pool' : PublisherPool}
  {id id' : UInt32} {path : String} {run : PoolRun}

/-! ### What an event changes -/

theorem running_alive (h : s.running p = some publisher) : publisher.alive = true := (Option.filter_eq_some_iff.1 h).2

theorem running_set (hp : s.running p = some publisher) (hs : s'.publishers = s.publishers.set p publisher') :
    s'.running q = if q = p then (if publisher'.alive then some publisher' else none) else s.running q := by
  unfold running
  rw [hs]
  by_cases hq : q = p
  · rw [hq, if_pos rfl, List.getElem?_set_self (List.getElem?_eq_some_iff.1 (running_get hp)).1]
    exact Option.filter_some
  · rw [if_neg hq, List.getElem?_set_ne (Ne.symm hq)]

theorem live_of_running (hp : s.running p = some publisher) : s.live p k = publisher.livePool k := by
  rw [live, hp, Option.bind_some]

theorem live_get (hp : s.running p = some publisher) (hk : publisher.livePool k = some pool) : s.live p k = some pool :=
  (live_of_running hp).trans hk

/-- One pool of a process changes. -/
theorem live_setPool (hp : s.running p = some publisher) (hk : publisher.livePool k = some pool)
    (hs : s'.publishers = s.publishers.set p { publisher with pools := publisher.pools.set k pool' }) :
    s'.live q j = if q = p ∧ j = k then (if pool'.alive then some pool' else none) else s.live q j := by
  unfold live
  rw [running_set hp hs]
  by_cases hq : q = p
  · rw [if_pos hq, if_pos (running_alive hp), hq, hp, Option.bind_some, Option.bind_some]
    unfold Publisher.livePool
    dsimp only
    by_cases hj : j = k
    · rw [if_pos ⟨rfl, hj⟩, hj, List.getElem?_set_self (List.getElem?_eq_some_iff.1 (livePool_get hk)).1]
      exact Option.filter_some
    · rw [if_neg fun h => hj h.2, List.getElem?_set_ne (Ne.symm hj)]
  · rw [if_neg hq, if_neg fun h => hq h.1]

theorem running_setPool (hp : s.running p = some publisher)
    (hs : s'.publishers = s.publishers.set p { publisher with pools := publisher.pools.set k pool' })
    (hq : s'.running q = some publisher') :
    ∃ P, s.running q = some P ∧ publisher'.euid = P.euid ∧ publisher'.pid = P.pid := by
  rw [running_set hp hs] at hq
  split at hq
  · rename_i hqp
    rw [if_pos (running_alive hp)] at hq
    cases hq
    exact ⟨publisher, by rw [hqp, hp], rfl, rfl⟩
  · exact ⟨publisher', hq, rfl, rfl⟩

/-- A registration goes on as long as its process, its block and its listener stay. -/
theorem Serves.keep (h : s.Serves p k id path) (hp : s'.running p = some publisher')
    (hrun : ∃ P, s.running p = some P ∧ publisher'.euid = P.euid ∧ publisher'.pid = P.pid)
    (hid : ∀ b x, s.identityAt p k b = some x → s'.identityAt p k b = some x)
    (hl : ∀ m, m.process = p → s.listeners path = some m → s'.listeners path = some m) : s'.Serves p k id path := by
  obtain ⟨P, b, fd, m, hP, hb, hpath, hm, hmp, hmk, hmb⟩ := h
  obtain ⟨P₀, hP₀, heuid, hpid⟩ := hrun
  rw [hP] at hP₀
  cases hP₀
  exact ⟨publisher', b, fd, m, hp, hid b _ hb, by rw [heuid, hpid]; exact hpath, hl m hmp hm, hmp, hmk, hmb⟩

namespace Apart

/-- Registrations at one path are one registration. -/
theorem same (ha : Apart s) (hr : s.registeredAt p k id = some path) (hr' : s.registeredAt q j id' = some path) :
    p = q ∧ k = j ∧ id = id' := by
  obtain ⟨P, b, fd, m, hP, hid, hpath, -⟩ := ha.serves hr
  obtain ⟨Q, c, fd', m', hQ, hid', hpath', -⟩ := ha.serves hr'
  obtain ⟨-, hpid, heq, rfl⟩ := blockSocketPath_parts (hpath.symm.trans hpath')
  obtain rfl := ha.pids hP hQ hpid
  exact ⟨rfl, (ha.descriptors hid hid').1, heq⟩

/-- A block whose ID is not registered has a path that no registration has. -/
theorem unused {block : SharedBufferBlock} (ha : Apart s) (hp : s.running p = some publisher)
    (hk : publisher.livePool k = some pool) (hb : pool.run.pool.allBlocks[b]? = some block)
    (hnone : pool.run.pool.registeredBlocks block.blockId = none) : s.registeredAt q j id ≠
      some (blockSocketPath publisher.euid publisher.pid block.blockId block.nativeHandle) := fun hr => by
  obtain ⟨Q, c, fd, m, hQ, hid, hpath, -⟩ := ha.serves hr
  obtain ⟨-, hpid, rfl, rfl⟩ := blockSocketPath_parts hpath
  obtain rfl := ha.pids hp hQ hpid
  have hself : s.identityAt p k b = some (block.blockId, block.nativeHandle) := by
    rw [identityAt, live_get hp hk]
    exact IdRun.identities_get hb
  obtain ⟨rfl, -⟩ := ha.descriptors hself hid
  rw [registeredAt, live_get hp hk, Option.bind_some, hnone] at hr
  cases hr

/-- Nothing is bound, and no block is new. -/
theorem keep (ha : Apart s)
    (hpids : ∀ p q P Q, s'.running p = some P → s'.running q = some Q → P.pid = Q.pid → p = q)
    (hlive : ∀ q j publisher' pool', s'.running q = some publisher' → s'.live q j = some pool' → pool'.run = {} ∨
      ∃ publisher pool, s.running q = some publisher ∧ s.live q j = some pool ∧ publisher'.euid = publisher.euid ∧
        publisher'.pid = publisher.pid ∧ pool'.run.pool.identities = pool.run.pool.identities ∧
        pool'.run.pool.registeredBlocks = pool.run.pool.registeredBlocks)
    (hlisten : ∀ q j id path, s'.registeredAt q j id = some path → s.registeredAt q j id = some path →
      ∀ m, m.process = q → s.listeners path = some m → s'.listeners path = some m) : Apart s' := by
  have hpool : ∀ q j pool', s'.live q j = some pool' → ∃ publisher', s'.running q = some publisher' :=
    fun q j pool' hl => (Option.bind_eq_some_iff.1 hl).imp fun _ h => h.1
  have hid : ∀ q j c x, s'.identityAt q j c = some x → s.identityAt q j c = some x := fun q j c x h => by
    obtain ⟨pool', hl, hx⟩ := Option.bind_eq_some_iff.1 h
    obtain ⟨publisher', hq⟩ := hpool q j pool' hl
    rcases hlive q j publisher' pool' hq hl with hnew | ⟨-, pool, -, hl', -, -, hids, -⟩
    · rw [hnew] at hx
      cases hx
    · rw [hids] at hx
      exact Option.bind_eq_some_iff.2 ⟨pool, hl', hx⟩
  refine ⟨fun h h' => hpids _ _ _ _ h h', fun h h' => ha.descriptors (hid _ _ _ _ h) (hid _ _ _ _ h'),
    fun {q j id path} hr => ?_⟩
  obtain ⟨pool', hl, hreg⟩ := Option.bind_eq_some_iff.1 hr
  obtain ⟨publisher', hq⟩ := hpool q j pool' hl
  rcases hlive q j publisher' pool' hq hl with hnew | ⟨publisher, pool, hq', hl', heuid, hpid, hids, hregs⟩
  · rw [hnew] at hreg
    cases hreg
  · have hr₀ : s.registeredAt q j id = some path := Option.bind_eq_some_iff.2 ⟨pool, hl', by rw [← hregs]; exact hreg⟩
    refine (ha.serves hr₀).keep hq ⟨publisher, hq', heuid, hpid⟩ (fun c x hc => ?_) (hlisten q j id path hr hr₀)
    obtain ⟨pool₀, hl₀, hc⟩ := Option.bind_eq_some_iff.1 hc
    rw [hl'] at hl₀
    cases hl₀
    exact Option.bind_eq_some_iff.2 ⟨pool', hl, by rw [hids]; exact hc⟩

theorem spawn {euid : Nat} {pid : Int} (ha : Apart s)
    (hno : ¬ (pid ≤ 0 ∨ (s.publishers.any fun publisher => publisher.alive && publisher.pid == pid) = true)) :
    Apart { s with publishers := s.publishers ++ [{ euid := euid, pid := pid }] } := by
  have hrun : ∀ q P,
      ({ s with publishers := s.publishers ++ [{ euid := euid, pid := pid }] } : System).running q = some P →
      s.running q = some P ∨ q = s.publishers.length ∧ P = { euid := euid, pid := pid } := fun q P h => by
    unfold running at h ⊢
    dsimp only at h
    rcases Nat.lt_trichotomy q s.publishers.length with hlt | heq | hgt
    · rw [List.getElem?_append_left hlt] at h
      exact .inl h
    · rw [heq, List.getElem?_concat_length] at h
      cases h
      exact .inr ⟨heq, rfl⟩
    · rw [List.getElem?_eq_none (by rw [List.length_append, List.length_singleton]; omega)] at h
      cases h
  have hfresh : ∀ q P, s.running q = some P → P.pid ≠ pid := fun q P h heq => by
    refine hno (.inr (List.any_eq_true.2 ⟨P, List.mem_of_getElem? (running_get h), ?_⟩))
    rw [running_alive h, heq, Bool.true_and, beq_self_eq_true]
  refine ha.keep (fun p q P Q hP hQ hpid => ?_) (fun q j P pool' hq hl => ?_) fun _ _ _ _ _ _ _ _ hm => hm
  · rcases hrun p P hP with hP | ⟨hp, rfl⟩
    · rcases hrun q Q hQ with hQ | ⟨hq, rfl⟩
      · exact ha.pids hP hQ hpid
      · exact absurd hpid (hfresh p P hP)
    · rcases hrun q Q hQ with hQ | ⟨hq, rfl⟩
      · exact absurd hpid.symm (hfresh q Q hQ)
      · rw [hp, hq]
  · have hl := (live_of_running hq).symm.trans hl
    rcases hrun q P hq with hq | ⟨-, rfl⟩
    · exact .inr ⟨P, pool', hq, (live_of_running hq).trans hl, rfl, rfl, rfl, rfl⟩
    · cases hl

theorem exit (ha : Apart s) (hp : s.running p = some publisher) :
    Apart { s with
      publishers := s.publishers.set p { publisher with alive := false }
      listeners := fun path => (s.listeners path).filter (·.process != p) } := by
  have hrun : ∀ q P, ({ s with
      publishers := s.publishers.set p { publisher with alive := false }
      listeners := fun path => (s.listeners path).filter (·.process != p) } : System).running q = some P →
      q ≠ p ∧ s.running q = some P := fun q P h => by
    rw [running_set hp rfl] at h
    split at h
    · cases h
    · exact ⟨‹_›, h⟩
  refine ha.keep (fun p' q P Q hP hQ hpid => ha.pids (hrun p' P hP).2 (hrun q Q hQ).2 hpid)
    (fun q j P pool' hq hl => ?_)
    fun q j id path hr _ m hmp hm => ?_
  · have hl := (live_of_running hq).symm.trans hl
    have hq := (hrun q P hq).2
    exact .inr ⟨P, pool', hq, (live_of_running hq).trans hl, rfl, rfl, rfl, rfl⟩
  · obtain ⟨pool', hl, -⟩ := Option.bind_eq_some_iff.1 hr
    obtain ⟨P, hq, -⟩ := Option.bind_eq_some_iff.1 hl
    refine Option.filter_eq_some_iff.2 ⟨hm, ?_⟩
    rw [hmp]
    exact bne_iff_ne.2 (hrun q P hq).1

theorem createPool (ha : Apart s) (hp : s.running p = some publisher) :
    Apart { s with publishers := s.publishers.set p { publisher with pools := publisher.pools ++ [{}] } } := by
  have hrun : ∀ q P, ({ s with
      publishers := s.publishers.set p { publisher with pools := publisher.pools ++ [{}] } } : System).running q =
        some P →
      ∃ P₀, s.running q = some P₀ ∧ P.euid = P₀.euid ∧ P.pid = P₀.pid ∧ ∀ j pool, P.livePool j = some pool →
        pool.run = {} ∨ P₀.livePool j = some pool := fun q P h => by
    rw [running_set hp rfl] at h
    split at h
    · rename_i hq
      rw [if_pos (running_alive hp)] at h
      cases h
      refine ⟨publisher, by rw [hq, hp], rfl, rfl, fun j pool hj => ?_⟩
      unfold Publisher.livePool at hj ⊢
      dsimp only at hj
      rcases Nat.lt_trichotomy j publisher.pools.length with hlt | heq | hgt
      · rw [List.getElem?_append_left hlt] at hj
        exact .inr hj
      · rw [heq, List.getElem?_concat_length] at hj
        cases hj
        exact .inl rfl
      · rw [List.getElem?_eq_none (by rw [List.length_append, List.length_singleton]; omega)] at hj
        cases hj
    · exact ⟨P, h, rfl, rfl, fun _ _ hj => .inr hj⟩
  refine ha.keep (fun p' q P Q hP hQ hpid => ?_) (fun q j P pool' hq hl => ?_) fun _ _ _ _ _ _ _ _ hm => hm
  · obtain ⟨P₀, hP₀, -, hpid₀, -⟩ := hrun p' P hP
    obtain ⟨Q₀, hQ₀, -, hqid₀, -⟩ := hrun q Q hQ
    exact ha.pids hP₀ hQ₀ (hpid₀.symm.trans (hpid.trans hqid₀))
  · obtain ⟨P₀, hP₀, heuid, hpid, hpools⟩ := hrun q P hq
    rcases hpools j pool' ((live_of_running hq).symm.trans hl) with hnew | hold
    · exact .inl hnew
    · exact .inr ⟨P₀, pool', hP₀, (live_of_running hP₀).trans hold, heuid, hpid, rfl, rfl⟩

theorem destroyPool (ha : Apart s) (hp : s.running p = some publisher) (hk : publisher.livePool k = some pool) :
    Apart { s.setPool p k publisher { pool with alive := false } with
      listeners := unlinked s.listeners pool.run.pool } := by
  refine ha.keep (fun p' q P Q hP hQ hpid => ?_) (fun q j P pool' hq hl => ?_) fun q j id path hr hr₀ m hmp hm => ?_
  · obtain ⟨P₀, hP₀, -, hpid₀⟩ := running_setPool hp rfl hP
    obtain ⟨Q₀, hQ₀, -, hqid₀⟩ := running_setPool hp rfl hQ
    exact ha.pids hP₀ hQ₀ (hpid₀.symm.trans (hpid.trans hqid₀))
  · obtain ⟨P₀, hP₀, heuid, hpid⟩ := running_setPool hp rfl hq
    rw [live_setPool hp hk rfl] at hl
    split at hl
    · cases hl
    · exact .inr ⟨P₀, pool', hP₀, hl, heuid, hpid, rfl, rfl⟩
  · -- the path is not one of the pool's own
    obtain ⟨pool', hl, -⟩ := Option.bind_eq_some_iff.1 hr
    rw [live_setPool hp hk rfl] at hl
    split at hl
    · cases hl
    · rename_i hne
      refine (if_neg ?_).trans hm
      intro hany
      obtain ⟨block, -, hblock⟩ := List.any_eq_true.1 hany
      have hreg : s.registeredAt p k block.blockId = some path := by
        rw [registeredAt, live_get hp hk, Option.bind_some]
        exact eq_of_beq hblock
      obtain ⟨rfl, rfl, -⟩ := ha.same hr₀ hreg
      exact hne ⟨rfl, rfl⟩

end Apart

/-! ### Calls -/

/-- What a call of the pool does to IDs and registrations. -/
inductive Called (p k : Nat) (pool : Pool) (op : PoolOp) (pool' : Pool) : Prop
  | quiet : pool'.identities = pool.identities → pool'.registeredBlocks = pool.registeredBlocks →
      (∀ path m, rebinds p k pool op = some (path, m) → m = none) → Called p k pool op pool'
  | created {n : Nat} {e : AllocEnv} {fd : Int} : op = .allocate n e → e.mapping = .ok fd →
      pool'.identities = pool.identities ++ [(pool.nextBlockId, fd)] → pool'.registeredBlocks = pool.registeredBlocks →
      Called p k pool op pool'
  | bound {b euid : Nat} {pid : Int} {block : SharedBufferBlock} : op = .register b euid pid (.ok ()) →
      pool.allBlocks[b]? = some block → pool.registeredBlocks block.blockId = none → ¬ block.nativeHandle < 0 →
      pool'.identities = pool.identities → pool'.registeredBlocks = Function.update pool.registeredBlocks block.blockId
        (some (blockSocketPath euid pid block.blockId block.nativeHandle)) → Called p k pool op pool'

theorem Called.of_step {run run' : PoolRun} {op : PoolOp} (h : run.step op = some run') :
    Called p k run.pool op run'.pool := by
  have hsame : Pool.Same run.pool run'.pool → (∀ b euid pid socket, op ≠ .register b euid pid socket) →
      Called p k run.pool op run'.pool := fun hs hno =>
    .quiet hs.identities hs.registered fun path m hre => by
      obtain ⟨b, euid, pid, socket, -, hop, -⟩ := rebinds_some hre
      exact absurd hop (hno b euid pid socket)
  cases op with
  | allocate n e =>
    cases ha : run.pool.allocate n e with
    | mk pool' r =>
      have hrun : run'.pool = pool' := by
        simp only [PoolRun.step, ha] at h
        cases r with
        | ok b => cases h; rfl
        | error x => cases h; rfl
      subst hrun
      rcases Pool.allocate_ids ha with ⟨hs, -⟩ | ⟨-, hreg, ⟨hids, -⟩ | ⟨-, fd, hfd, hids⟩⟩
      · exact hsame hs fun _ _ _ _ hop => by cases hop
      · exact .quiet hids hreg fun path m hre => by cases hre
      · exact .created rfl hfd hids hreg
  | free entry => cases h; exact hsame (.free entry) fun _ _ _ _ hop => by cases hop
  | markPublished b now => cases h; exact hsame (.markPublished now) fun _ _ _ _ hop => by cases hop
  | assignUid b uid => cases h; exact hsame (.assignUid uid) fun _ _ _ _ hop => by cases hop
  | outside act => cases h; exact hsame .outsideStep fun _ _ _ _ hop => by cases hop
  | register b euid pid socket =>
    cases h
    by_cases hfirst : ∃ block, run.pool.allBlocks[b]? = some block ∧ ¬ block.nativeHandle < 0 ∧
        run.pool.registeredBlocks block.blockId = none ∧ socket = .ok ()
    · obtain ⟨block, hb, hfd, hnone, rfl⟩ := hfirst
      have hids : Pool.Same run.pool (run.pool.modifyBlock b fun x =>
          { x with socketPath := blockSocketPath euid pid block.blockId block.nativeHandle }) :=
        .modifyBlock fun _ => ⟨rfl, rfl⟩
      refine .bound rfl hb hnone hfd ?_ (registerBlock_first euid pid hb hfd hnone)
      rw [Pool.registerBlock, hb]
      dsimp only
      rw [if_neg hfd, hnone]
      exact hids.identities
    · have hkept : (run.pool.registerBlock b euid pid socket).1 = run.pool := by
        unfold Pool.registerBlock
        split
        · rfl
        · rename_i block hb
          split
          · rfl
          · split
            · rfl
            · rfl
            · exact absurd ⟨block, hb, ‹_›, ‹_›, rfl⟩ hfirst
      refine .quiet (by rw [hkept]) (by rw [hkept]) fun path m hre => ?_
      obtain ⟨b', euid', pid', socket', block, hop, hb, hfd, hnone, hm⟩ := rebinds_some hre
      cases hop
      cases m with
      | none => rfl
      | some m => exact absurd ⟨block, hb, hfd, hnone, (hm m rfl).1⟩ hfirst

theorem livePool_alive (hk : publisher.livePool k = some pool) : pool.alive = true := (Option.filter_eq_some_iff.1 hk).2

/-- A descriptor number that is not in use is that of no block. -/
theorem opens_false {fd : Int} (hp : s.running p = some publisher) (hno : publisher.opens fd = false) :
    s.identityAt p j c ≠ some (id, fd) := fun h => by
  obtain ⟨pool, hl, hc⟩ := Option.bind_eq_some_iff.1 h
  have hj : publisher.livePool j = some pool := (live_of_running hp).symm.trans hl
  obtain ⟨block, hb, hid⟩ := List.getElem?_map ▸ hc |> Option.map_eq_some_iff.1
  cases hid
  refine Bool.eq_false_iff.1 hno (List.any_eq_true.2 ⟨pool, List.mem_of_getElem? (livePool_get hj), ?_⟩)
  rw [livePool_alive hj, Bool.true_and]
  exact List.any_eq_true.2 ⟨block, List.mem_of_getElem? hb, beq_self_eq_true _⟩

namespace Apart

theorem call {op : PoolOp} (ha : Apart s) (hp : s.running p = some publisher) (hk : publisher.livePool k = some pool)
    (hperm : publisher.permits op = true) (hrun : pool.run.step op = some run) :
    Apart { s.setPool p k publisher { pool with run := run } with
      listeners := rebound s.listeners (rebinds p k pool.run.pool op) } := by
  generalize hs' : ({ s.setPool p k publisher { pool with run := run } with
      listeners := rebound s.listeners (rebinds p k pool.run.pool op) } : System) = s'
  have hpub : s'.publishers = s.publishers.set p
      { publisher with pools := publisher.pools.set k { pool with run := run } } := by
    rw [← hs']
    rfl
  have hlisten : s'.listeners = rebound s.listeners (rebinds p k pool.run.pool op) := by rw [← hs']
  clear hs'
  have hal : pool.alive = true := livePool_alive hk
  have hlive : ∀ q j, s'.live q j = if q = p ∧ j = k then some { pool with run := run } else s.live q j := fun q j => by
    rw [live_setPool hp hk hpub, show ({ pool with run := run } : PublisherPool).alive = true from hal, if_pos rfl]
  have hself : s'.live p k = some { pool with run := run } := by rw [hlive, if_pos ⟨rfl, rfl⟩]
  have hpids : ∀ p' q P Q, s'.running p' = some P → s'.running q = some Q → P.pid = Q.pid → p' = q :=
    fun p' q P Q hP hQ hpid => by
      obtain ⟨P₀, hP₀, -, hpid₀⟩ := running_setPool hp hpub hP
      obtain ⟨Q₀, hQ₀, -, hqid₀⟩ := running_setPool hp hpub hQ
      exact ha.pids hP₀ hQ₀ (hpid₀.symm.trans (hpid.trans hqid₀))
  cases Called.of_step (p := p) (k := k) hrun with
  | quiet hids hreg hnone =>
    refine ha.keep hpids (fun q j P pool' hq hl => ?_) fun q j id path hr hr₀ m hmp hm => ?_
    · obtain ⟨P₀, hP₀, heuid, hpid⟩ := running_setPool hp hpub hq
      rw [hlive] at hl
      split at hl
      · rename_i hqj
        cases hl
        exact .inr ⟨P₀, pool, hP₀, by rw [hqj.1, hqj.2, live_get hp hk], heuid, hpid, hids, hreg⟩
      · exact .inr ⟨P₀, pool', hP₀, hl, heuid, hpid, rfl, rfl⟩
    · rw [hlisten]
      cases hre : rebinds p k pool.run.pool op with
      | none => exact hm
      | some change =>
        -- a registration that fails unlinks a path that no other one has
        obtain ⟨gone, o⟩ := change
        obtain ⟨b, euid, pid, socket, block, rfl, hb, -, hfirst, -⟩ := rebinds_some hre
        have hwho : (euid = publisher.euid ∧ pid = publisher.pid) := by
          have : (euid == publisher.euid && pid == publisher.pid) = true := hperm
          simpa using this
        have hgone : gone = blockSocketPath publisher.euid publisher.pid block.blockId block.nativeHandle := by
          unfold rebinds at hre
          dsimp only at hre
          rw [hb] at hre
          dsimp only at hre
          split at hre
          · cases hre
          · cases hre
            rw [hwho.1, hwho.2]
        have hne : path ≠ gone := by
          rintro rfl
          rw [hgone] at hr₀
          exact ha.unused hp hk hb hfirst hr₀
        exact (Function.update_of_ne hne _ _).trans hm
  | @created n e fd hop hfd hids hreg =>
    subst hop
    have hfree : 0 ≤ fd ∧ publisher.opens fd = false := by
      simpa [Publisher.permits, hfd] using hperm
    have hl : s'.listeners = s.listeners := hlisten
    have hnew : ∀ q j b x, s'.identityAt q j b = some x → s.identityAt q j b = some x ∨
        q = p ∧ j = k ∧ b = pool.run.pool.identities.length ∧ x.2 = fd := fun q j b x h => by
      obtain ⟨pool', hl', hb⟩ := Option.bind_eq_some_iff.1 h
      rw [hlive] at hl'
      split at hl'
      · rename_i hqj
        cases hl'
        have hb : run.pool.identities[b]? = some x := hb
        rw [hids] at hb
        rcases Tally.get_append_cases hb with hold | ⟨hlen, rfl⟩
        · exact .inl (by rw [identityAt, hqj.1, hqj.2, live_get hp hk]; exact hold)
        · exact .inr ⟨hqj.1, hqj.2, hlen, rfl⟩
      · exact .inl (Option.bind_eq_some_iff.2 ⟨pool', hl', hb⟩)
    refine ⟨fun h h' => hpids _ _ _ _ h h', fun {q j b i c id id' fd'} h h' => ?_, fun {q j id path} hr => ?_⟩
    · rcases hnew q j b _ h with hold | ⟨rfl, rfl, hb, hx⟩
      · rcases hnew q i c _ h' with hold' | ⟨rfl, rfl, -, hx'⟩
        · exact ha.descriptors hold hold'
        · have hx' : fd' = fd := hx'
          exact absurd (hx' ▸ hold) (opens_false hp hfree.2)
      · rcases hnew q i c _ h' with hold' | ⟨-, rfl, hc, -⟩
        · have hx : fd' = fd := hx
          exact absurd (hx ▸ hold') (opens_false hp hfree.2)
        · exact ⟨rfl, hb.trans hc.symm⟩
    · have hr₀ : s.registeredAt q j id = some path := by
        obtain ⟨pool', hl', hr⟩ := Option.bind_eq_some_iff.1 hr
        rw [hlive] at hl'
        split at hl'
        · rename_i hqj
          cases hl'
          rw [registeredAt, hqj.1, hqj.2, live_get hp hk, Option.bind_some, ← hreg]
          exact hr
        · exact Option.bind_eq_some_iff.2 ⟨pool', hl', hr⟩
      obtain ⟨pool', hl', -⟩ := Option.bind_eq_some_iff.1 hr
      obtain ⟨P, hP, -⟩ := Option.bind_eq_some_iff.1 hl'
      refine (ha.serves hr₀).keep hP (running_setPool hp hpub hP) (fun b x hb => ?_) fun m _ hm => by rw [hl]; exact hm
      obtain ⟨pool₀, hl₀, hb⟩ := Option.bind_eq_some_iff.1 hb
      by_cases hqj : q = p ∧ j = k
      · obtain ⟨rfl, rfl⟩ := hqj
        rw [live_get hp hk] at hl₀
        cases hl₀
        rw [identityAt, hself, Option.bind_some]
        show run.pool.identities[b]? = some x
        rw [hids, List.getElem?_append_left (List.getElem?_eq_some_iff.1 hb).1]
        exact hb
      · rw [identityAt, hlive, if_neg hqj]
        exact Option.bind_eq_some_iff.2 ⟨pool₀, hl₀, hb⟩
  | @bound b euid pid block hop hb hnone hfd hids hreg =>
    subst hop
    obtain ⟨rfl, rfl⟩ : euid = publisher.euid ∧ pid = publisher.pid := by
      have : (euid == publisher.euid && pid == publisher.pid) = true := hperm
      simpa using this
    have hl : s'.listeners = Function.update s.listeners
        (blockSocketPath publisher.euid publisher.pid block.blockId block.nativeHandle)
        (some { process := p, pool := k, block := b, size := block.mappedSize }) := by
      rw [hlisten, rebinds]
      dsimp only
      rw [hb]
      dsimp only
      rw [if_neg (by rw [hnone]; simpa using hfd)]
      rfl
    have hsame : ∀ q j c, s'.identityAt q j c = s.identityAt q j c := fun q j c => by
      rw [identityAt, hlive]
      split
      · rename_i hqj
        rw [identityAt, hqj.1, hqj.2, live_get hp hk, Option.bind_some, Option.bind_some]
        exact congrArg (·[c]?) hids
      · rfl
    refine ⟨fun h h' => hpids _ _ _ _ h h', fun {q j b i c id id' fd'} h h' => ?_, fun {q j id path} hr => ?_⟩
    · rw [hsame] at h h'
      exact ha.descriptors h h'
    · obtain ⟨pool', hl', hr'⟩ := Option.bind_eq_some_iff.1 hr
      obtain ⟨P, hP, -⟩ := Option.bind_eq_some_iff.1 hl'
      have hcases : s.registeredAt q j id = some path ∨ q = p ∧ j = k ∧ id = block.blockId ∧
          path = blockSocketPath publisher.euid publisher.pid block.blockId block.nativeHandle := by
        rw [hlive] at hl'
        split at hl'
        · rename_i hqj
          cases hl'
          have hr' : run.pool.registeredBlocks id = some path := hr'
          rw [hreg] at hr'
          by_cases hid : id = block.blockId
          · rw [hid, Function.update_self] at hr'
            cases hr'
            exact .inr ⟨hqj.1, hqj.2, hid, rfl⟩
          · rw [Function.update_of_ne hid] at hr'
            exact .inl (by rw [registeredAt, hqj.1, hqj.2, live_get hp hk]; exact hr')
        · exact .inl (Option.bind_eq_some_iff.2 ⟨pool', hl', hr'⟩)
      rcases hcases with hr₀ | ⟨rfl, rfl, rfl, rfl⟩
      · refine (ha.serves hr₀).keep hP (running_setPool hp hpub hP) (fun c x hc => by rw [hsame]; exact hc)
          fun m _ hm => ?_
        have hne : path ≠ blockSocketPath publisher.euid publisher.pid block.blockId block.nativeHandle := by
          rintro rfl
          exact ha.unused hp hk hb hnone hr₀
        rw [hl, Function.update_of_ne hne]
        exact hm
      · obtain ⟨P₀, hP₀, heuid, hpid⟩ := running_setPool hp hpub hP
        rw [hp] at hP₀
        cases hP₀
        refine ⟨P, b, block.nativeHandle, _, hP, ?_, by rw [heuid, hpid], by rw [hl, Function.update_self],
          rfl, rfl, rfl⟩
        rw [hsame, identityAt, live_get hp hk]
        exact IdRun.identities_get hb

end Apart

/-! ### Runs -/

namespace Apart

theorem next {event : Event} (ha : Apart s) (h : s.step event = some s') : Apart s' := by
  cases event with
  | spawn euid pid =>
    dsimp only [step] at h
    split at h
    · cases h
    · rename_i hno
      cases h
      exact ha.spawn hno
  | exit p =>
    dsimp only [step] at h
    split at h
    · cases h
    · rename_i publisher hp
      cases h
      exact ha.exit hp
  | createPool p =>
    dsimp only [step] at h
    split at h
    · cases h
    · rename_i publisher hp
      cases h
      exact ha.createPool hp
  | destroyPool p k =>
    dsimp only [step] at h
    split at h
    · cases h
    · rename_i publisher hp
      split at h
      · cases h
      · rename_i pool hk
        cases h
        exact ha.destroyPool hp hk
  | call p k op =>
    dsimp only [step] at h
    split at h
    · cases h
    · rename_i publisher hp
      split at h
      · cases h
      · rename_i pool hk
        split at h
        · rename_i hperm
          obtain ⟨run, hrun, rfl⟩ := Option.map_eq_some_iff.1 h
          exact ha.call hp hk hperm hrun
        · cases h
  | importBlock c =>
    cases h
    exact ⟨ha.pids, ha.descriptors, ha.serves⟩

theorem init : Apart {} :=
  ⟨fun h => (by cases h), fun h => (by cases h), fun h => (by cases h)⟩

end Apart

/-- While a pool is alive, whoever connects to the path of one of its registrations is sent the memfd of the registered
block, whatever other pools and processes do; and no other registration has the path. -/
theorem registration_stands (h : Machine.Reach step (· = {}) s) (hp : s.running p = some publisher)
    (hk : publisher.livePool k = some pool) (hreg : pool.run.pool.registeredBlocks id = some path) :
    (∃ b block m, pool.run.pool.allBlocks[b]? = some block ∧ block.blockId = id ∧
      path = blockSocketPath publisher.euid publisher.pid id block.nativeHandle ∧ s.listeners path = some m ∧
      m.process = p ∧ m.pool = k ∧ m.block = b) ∧
    ∀ q j id' publisher' pool', s.running q = some publisher' → publisher'.livePool j = some pool' →
      pool'.run.pool.registeredBlocks id' = some path → q = p ∧ j = k ∧ id' = id := by
  have ha : Apart s := h.inv (fun _ h => by rw [h]; exact .init) fun _ _ _ ha _ hs => ha.next hs
  have hr : s.registeredAt p k id = some path := by
    rw [registeredAt, live_get hp hk]
    exact hreg
  refine ⟨?_, fun q j id' publisher' pool' hq hj hreg' => ?_⟩
  · obtain ⟨P, b, fd, m, hP, hid, hpath, hm, hmp, hmk, hmb⟩ := ha.serves hr
    rw [hp] at hP
    cases hP
    rw [identityAt, live_get hp hk, Option.bind_some, Pool.identities, List.getElem?_map] at hid
    obtain ⟨block, hb, hid⟩ := Option.map_eq_some_iff.1 hid
    cases hid
    exact ⟨b, block, m, hb, rfl, hpath, hm, hmp, hmk, hmb⟩
  · refine ha.same ?_ hr
    rw [registeredAt, live_get hq hj]
    exact hreg'

theorem registration_stands_published : ∃ publisher pool path m, published.running 0 = some publisher ∧
    publisher.livePool 0 = some pool ∧ pool.run.pool.registeredBlocks 0 = some path ∧
    published.listeners path = some m ∧ m.process = 0 ∧ m.pool = 0 := by
  obtain ⟨publisher, pool, path, hp, hk, hr⟩ : ∃ publisher pool path, published.running 0 = some publisher ∧
      publisher.livePool 0 = some pool ∧ pool.run.pool.registeredBlocks 0 = some path := ⟨_, _, _, rfl, rfl, rfl⟩
  have hreach : Machine.Reach step (· = {}) published :=
    .run (.start rfl) (rfl : Machine.run step {} (.spawn 1000 7 :: publish 0 5 1) = some published)
  obtain ⟨⟨b, block, m, -, -, -, hm, hmp, hmk, -⟩, -⟩ := registration_stands hreach hp hk hr
  exact ⟨_, _, _, m, hp, hk, hr, hm, hmp, hmk⟩

end System

end Import

end MemfdBuffer
