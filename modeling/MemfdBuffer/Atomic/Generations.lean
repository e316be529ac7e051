import MemfdBuffer.Atomic.Counting

/-!
# Generations

An import that succeeded reads the generation its descriptor was made for, and keeps it from being
recycled; a relay passes on exactly that descriptor. Both rest on the reader that the import holds.
-/

namespace MemfdBuffer.Atomic

open Tally

section
variable {w w' : World} {a : Act} {b gen j : Nat} {r : DescRec} {blk : PhysBlock}

/-- An import that holds a reader reads the generation of its descriptor. -/
theorem ImportOk.same_gen (h : Inv w) (hi : ImportOk w b gen r blk) (hn : 0 < w.refs b)
    (hj : w.descs[j]? = some r) (hd : blk.draws.Nodup) : blk.gen = r.gen ∧ blk.payload = r.bytes := by
  obtain ⟨blk', ho⟩ := h.descs j r hj
  have hb := ho.block
  rw [hi.blk, hi.block] at hb; cases hb
  have h1 := (hi.canon h hn ⟨j, hj⟩).uid
  have h2 := ho.canon.uid
  have hg : blk.gen = r.gen := by
    rw [hi.gen] at h1
    obtain ⟨hlt, h1⟩ := List.getElem?_eq_some_iff.1 h1
    obtain ⟨hlt', h2⟩ := List.getElem?_eq_some_iff.1 h2
    exact hd.getElem_inj_iff.1 (h1.trans h2.symm)
  exact ⟨hg, (ho.bytes hg).2.symm⟩

/-- The block an imported buffer points into, and that it holds a reader there. -/
theorem Inv.import_of_buf (h : Inv w) {i : Nat} {s : BufSlot} (hs : w.holdsBuf i s)
    (hsrc : s.src = some j) : ∃ b r blk, w.descs[j]? = some r ∧ ImportOk w b s.gen r blk ∧
      s.buf.dataPtr = some b ∧ s.buf.control = some b ∧ s.buf.hasIpcDescriptor = true ∧
      0 < w.refs b := by
  cases h.bufs i s hs with
  | empty he => rw [he] at hsrc; cases hsrc
  | own c blk lease hb hready hl he => rw [he] at hsrc; cases hsrc
  | imported c k r blk lease hk hi hl he =>
    have hk' : s.src = some k := by rw [he]
    rw [hsrc] at hk'; cases hk'
    refine ⟨c, r, blk, hk, hi, by rw [he]; rfl, by rw [he]; rfl, ?_, ?_⟩
    · rw [he]; exact hi.check.hasIpcDescriptor (b := c)
    · exact refs_pos_of_buf hs (by rw [he]; rfl) (by rw [he]; rfl)

theorem Inv.import_of_read (h : Inv w) {i : Nat} {s : ReadSlot} (hs : w.reads[i]? = some (some s))
    (hsrc : s.src = some j) : ∃ b r blk, w.descs[j]? = some r ∧ ImportOk w b s.gen r blk ∧
      s.handle.dataPtr = some b ∧ 0 < w.refs b := by
  cases h.reads i s hs with
  | empty he => rw [he] at hsrc; cases hsrc
  | leased c blk owner hb hready hg he hok =>
    obtain ⟨r, hr, hi⟩ := hok j hsrc
    exact ⟨c, r, blk, hr, hi, by rw [he], refs_pos_of_read hs (by rw [he])⟩

/-- Each byte read through an import of descriptor `j` is the byte published with it. -/
def SeenOk (w : World) : Prop :=
  ∀ j k v, (j, k, v) ∈ w.seen → ∃ r blk, w.descs[j]? = some r ∧ w.blocks[r.blk]? = some blk ∧
    (blk.draws.Nodup → r.bytes[k]? = some v)

theorem SeenOk.step (h : Inv w) (hok : SeenOk w) (hs : Step w a w') : SeenOk w' := by
  have old : ∀ j k v, (j, k, v) ∈ w.seen → ∃ r blk, w'.descs[j]? = some r ∧
      w'.blocks[r.blk]? = some blk ∧ (blk.draws.Nodup → r.bytes[k]? = some v) := by
    intro j k v hm
    obtain ⟨r, blk, hj, hb, hv⟩ := hok j k v hm
    obtain ⟨blk', hb', hk⟩ := hs.keeps _ _ hb
    exact ⟨r, blk', get_of_initial hs.descs hj, hb', fun hd => hv (hd.sublist hk.grows.draws.sublist)⟩
  cases hs with
  | @sawBuf _ i j b k v s blk hs hj hd hb hv =>
    intro j' k' v' hm
    rcases List.mem_cons.1 hm with hm | hm
    · cases hm
      obtain ⟨c, r, blk', hr, hi, hp, -, -, hn⟩ := h.import_of_buf hs hj
      rw [hd] at hp; cases hp
      have hbb := hi.block
      rw [hb] at hbb; cases hbb
      exact ⟨r, blk, hr, by rw [hi.blk]; exact hb, fun hnd => by
        rw [← (hi.same_gen h hn hr hnd).2]; exact hv⟩
    · exact old j' k' v' hm
  | @sawRead _ i j b k v s blk hs hj hd hb hv =>
    intro j' k' v' hm
    rcases List.mem_cons.1 hm with hm | hm
    · cases hm
      obtain ⟨c, r, blk', hr, hi, hp, hn⟩ := h.import_of_read hs hj
      rw [hd] at hp; cases hp
      have hbb := hi.block
      rw [hb] at hbb; cases hbb
      exact ⟨r, blk, hr, by rw [hi.blk]; exact hb, fun hnd => by
        rw [← (hi.same_gen h hn hr hnd).2]; exact hv⟩
    · exact old j' k' v' hm
  | _ => exact old

end

theorem Reachable.seen {w : World} (h : Reachable w) : SeenOk w :=
  Machine.ReachIf.inv_of (fun _ => Reachable.inv)
    (fun _ ⟨_, hw⟩ j k v hm => by subst hw; cases hm)
    (fun _ _ _ hi hok _ hs => hok.step hi (step_sound hs)) h

/-- What an import of descriptor `j` into `blk` sees. -/
structure GenerationSafe (w : World) (j : Nat) (r : DescRec) (blk : PhysBlock) : Prop where
  /-- Every byte ever read is the one published with the descriptor. -/
  seen : ∀ k v, (j, k, v) ∈ w.seen → r.bytes[k]? = some v
  /-- While an imported buffer lives, the generation of the descriptor lasts. -/
  buffer : ∀ i s, w.holdsBuf i s → s.src = some j →
    blk.gen = r.gen ∧ blk.control.ipcUid = r.d.ipcUid ∧ blk.payload = r.bytes
  handle : ∀ (i : Nat) s, w.reads[i]? = some (some s) → s.src = some j →
    blk.gen = r.gen ∧ blk.control.ipcUid = r.d.ipcUid ∧ blk.payload = r.bytes

/-- Imports of a block whose UIDs never repeat read the generation of their descriptor. -/
theorem import_reads_own_generation {w : World} (h : Reachable w) {j : Nat} {r : DescRec}
    {blk : PhysBlock} (hj : w.descs[j]? = some r) (hb : w.blocks[r.blk]? = some blk)
    (hd : blk.draws.Nodup) : GenerationSafe w j r blk := by
  refine ⟨fun k v hm => ?_, fun i s hs hsrc => ?_, fun i s hs hsrc => ?_⟩
  · obtain ⟨r', blk', hj', hb', hv⟩ := h.seen j k v hm
    rw [hj] at hj'; cases hj'
    rw [hb] at hb'; cases hb'
    exact hv hd
  · obtain ⟨c, r', blk', hr, hi, -, -, -, hn⟩ := h.inv.import_of_buf hs hsrc
    rw [hj] at hr; cases hr
    have hbb := hi.block
    rw [← hi.blk, hb] at hbb; cases hbb
    obtain ⟨hg, hp⟩ := hi.same_gen h.inv hn hj hd
    exact ⟨hg, hi.uid, hp⟩
  · obtain ⟨c, r', blk', hr, hi, -, hn⟩ := h.inv.import_of_read hs hsrc
    rw [hj] at hr; cases hr
    have hbb := hi.block
    rw [← hi.blk, hb] at hbb; cases hbb
    obtain ⟨hg, hp⟩ := hi.same_gen h.inv hn hj hd
    exact ⟨hg, hi.uid, hp⟩

theorem import_reads_own_generation_exchanged : ∃ w r blk, Reachable w ∧ (0, 1, 6) ∈ w.seen ∧
    w.descs[0]? = some r ∧ GenerationSafe w 0 r blk := by
  have hw : Machine.run step exchanged [.readByte 1 1] =
    some (exchanged.addSeen (0, 1, 6)) := rfl
  have hr := exchanged_reachable.run hw
  exact ⟨_, _, _, hr, by decide, rfl, import_reads_own_generation hr rfl rfl (by decide)⟩

/-! ### Relay chains -/

/-- Descriptor `k` descends from `j`: the owner published the generation again, or an import of a
descendant was relayed. -/
inductive Derived (w : World) (j : Nat) : Nat → Prop
  | self : Derived w j j
  | again {k k' : Nat} {r r' : DescRec} (hk : Derived w j k) (hr : w.descs[k]? = some r)
      (hr' : w.descs[k']? = some r') (hb : r'.blk = r.blk) (hg : r'.gen = r.gen) : Derived w j k'
  | relay {k k' : Nat} {r' : DescRec} (hk : Derived w j k) (hr' : w.descs[k']? = some r')
      (hp : r'.parent = some k) : Derived w j k'

/-- A relay of slot `i`, which holds `s`, with `n` accesses to come after the next one. -/
inductive Relaying (i : Nat) (s : BufSlot) : Nat → Task → Prop
  | check : Relaying i s 2 (.relayCheck i s)
  | clock {d : SharedBufferDescriptor} : Relaying i s 1 (.readClock i s d)
  | stamp {d : SharedBufferDescriptor} {now : Nat} : Relaying i s 0 (.storeStamp i s d now)

/-- Where the access leads: one access less, after the last one a descriptor. -/
def RelayNext (i : Nat) (s : BufSlot) : Nat → Task → Prop
  | 0, k => ∃ c, k = .returned s (some c)
  | n + 1, k => Relaying i s n k

/-- What an access of a relay finds and does: nothing changes but the time stamp of the block, under the
UID of the descriptor `r` and in the generation that the buffer holds. -/
structure RelayAccess (w w' : World) (s : BufSlot) (r : DescRec) (blk blk' : PhysBlock) : Prop where
  control : s.buf.control = some r.blk
  before : w.blocks[r.blk]? = some blk
  after : w'.blocks[r.blk]? = some blk'
  header : blk'.control = { blk.control with publishTimestampUs := blk'.control.publishTimestampUs }
  payload : blk'.payload = blk.payload
  others : ∀ c, c ≠ r.blk → w'.blocks[c]? = w.blocks[c]?
  uid : blk.control.ipcUid = r.d.ipcUid
  held : blk.gen = s.gen
  own : blk.draws.Nodup → blk.gen = r.gen

/-- The calls of `create_descriptor_with_endpoint` on buffers imported from descriptor `j`, whose record
is `r`, or from a descendant of it. -/
structure RelayOk (w : World) (j : Nat) (r : DescRec) : Prop where
  /-- All descendants are equal, in every field. -/
  same : ∀ k q, Derived w j k → w.descs[k]? = some q → q.d = r.d
  /-- On a buffer that is alive the call takes the relay's path. -/
  begins : ∀ k, Derived w j k → ∀ i s, w.holdsBuf i s → s.src = some k →
    step w (.beginRelay i) = some (w.addTask (.relayCheck i s))
  /-- While the buffer lives the call is never stuck: after its accesses it has returned. -/
  runs : ∀ k, Derived w j k → ∀ (t i : Nat) s n task, w.tasks[t]? = some task → Relaying i s n task →
    s.src = some k → w.holdsBuf i s → ∃ w' task', step w (.task t false) = some w' ∧
      w'.tasks[t]? = some task' ∧ RelayNext i s n task'
  /-- No call returns `nullptr`; what it returns is a descendant again. -/
  returns : ∀ k, Derived w j k → ∀ (t : Nat) s result, w.tasks[t]? = some (.returned s result) →
    s.src = some k → ∃ c q, result = some c ∧ w.descs[c]? = some q ∧ q.parent = some k ∧ q.d = r.d ∧
      Derived w j c
  access : ∀ k, Derived w j k → ∀ (t i : Nat) s n task spurious w', w.tasks[t]? = some task →
    Relaying i s n task → s.src = some k → step w (.task t spurious) = some w' →
      ∃ blk blk', RelayAccess w w' s r blk blk'

/-- Descendants are of the same block, and equal. -/
theorem Inv.derived_same {w : World} (h : Inv w) {j k : Nat} (hk : Derived w j k) :
    ∀ r q, w.descs[j]? = some r → w.descs[k]? = some q → q.blk = r.blk ∧ q.d = r.d := by
  induction hk with
  | self =>
    intro r q hr hq
    rw [hr] at hq; cases hq
    exact ⟨rfl, rfl⟩
  | @again k k' p p' hk hp hp' hb hg ih =>
    intro r q hr hq
    rw [hp'] at hq; cases hq
    obtain ⟨blk, ho⟩ := h.descs k p hp
    obtain ⟨blk', ho'⟩ := h.descs k' p' hp'
    have hbb := ho'.block
    rw [hb, ho.block] at hbb; cases hbb
    have hc := ho'.canon
    rw [hg] at hc
    obtain ⟨h1, h2⟩ := ih r p hr hp
    exact ⟨hb.trans h1, (hc.unique ho.canon).trans h2⟩
  | @relay k k' p' hk hp' hpar ih =>
    intro r q hr hq
    rw [hp'] at hq; cases hq
    obtain ⟨blk', ho'⟩ := h.descs k' p' hp'
    obtain ⟨p, hp, hpb, hpd⟩ := ho'.parent k hpar
    obtain ⟨h1, h2⟩ := ih r p hr hp
    exact ⟨hpb.symm.trans h1, hpd.symm.trans h2⟩

section
variable {w w' : World} {t i n j k : Nat} {s : BufSlot} {task : Task} {r : DescRec}

/-- An import of a descendant is as good as one of the descriptor itself. -/
theorem Inv.relay_block (h : Inv w) (hk : Derived w j k) (hs : w.holdsBuf i s) (hsrc : s.src = some k)
    (hj : w.descs[j]? = some r) : ∃ blk, s.buf.control = some r.blk ∧ ImportOk w r.blk s.gen r blk ∧
      s.buf.hasIpcDescriptor = true ∧ 0 < w.refs r.blk := by
  obtain ⟨b, q, blk, hq, hi, -, hc, hd, hn⟩ := h.import_of_buf hs hsrc
  obtain ⟨hblk, hsame⟩ := h.derived_same hk r q hj hq
  have hb : r.blk = b := hblk.symm.trans hi.blk
  subst hb
  exact ⟨blk, hc, ⟨hi.block, hi.ready, hi.gen, hsame ▸ hi.uid, rfl, hsame ▸ hi.check⟩, hd, hn⟩

theorem Inv.relay_begins (h : Inv w) (hs : w.holdsBuf i s) (hsrc : s.src = some k) :
    step w (.beginRelay i) = some (w.addTask (.relayCheck i s)) := by
  obtain ⟨b, q, blk, -, -, -, -, hd, -⟩ := h.import_of_buf hs hsrc
  have hs' : w.bufs[i]? = some (some s) := hs
  simp only [step, World.beginRelay, hs', Option.bind_eq_bind, Option.bind_some, hd, if_true]

theorem Inv.relay_runs (h : Inv w) (ht : w.tasks[t]? = some task) (hr : Relaying i s n task)
    (hk : Derived w j k) (hsrc : s.src = some k) (hj : w.descs[j]? = some r) (hs : w.holdsBuf i s) :
    ∃ w' task', step w (.task t false) = some w' ∧ w'.tasks[t]? = some task' ∧ RelayNext i s n task' := by
  obtain ⟨blk, hc, hi, hd, -⟩ := h.relay_block hk hs hsrc hj
  cases hr with
  | check =>
    refine ⟨w.setTask t (.readClock i s (relayDescriptor s.buf)), _, ?_, get_set_self ht, .clock⟩
    simp only [step, World.stepTask, ht, Option.bind_eq_bind, Option.bind_some, World.relayCheck, hc,
      hi.block, hs, if_true, BufOk.relayAccepts h hs hd hc hi.block]
  | @clock d =>
    refine ⟨w.setTask t (.storeStamp i s d w.clock), _, ?_, get_set_self ht, .stamp⟩
    simp only [step, World.stepTask, ht, Option.bind_eq_bind, Option.bind_some, World.readClock, hs, if_true]
  | @stamp d now =>
    refine ⟨?world, .returned s (some w.descs.length), ?step, ?task, _, rfl⟩
    case step =>
      simp only [step, World.stepTask, ht, Option.bind_eq_bind, Option.bind_some, World.storeStamp, hc,
        hi.block, hs, if_true]
      rfl
    case task => exact get_set_self (l := w.tasks) ht

theorem Inv.relay_access (h : Inv w) (ht : w.tasks[t]? = some task) (hr : Relaying i s n task)
    (hk : Derived w j k) (hsrc : s.src = some k) (hj : w.descs[j]? = some r) {spurious : Bool}
    (hst : step w (.task t spurious) = some w') : ∃ blk blk', RelayAccess w w' s r blk blk' := by
  have found : w.holdsBuf i s → ∃ blk, s.buf.control = some r.blk ∧ w.blocks[r.blk]? = some blk ∧
      blk.control.ipcUid = r.d.ipcUid ∧ blk.gen = s.gen ∧ (blk.draws.Nodup → blk.gen = r.gen) := by
    intro hs
    obtain ⟨blk, hc, hi, -, hn⟩ := h.relay_block hk hs hsrc hj
    exact ⟨blk, hc, hi.block, hi.uid, hi.gen.symm, fun hd => (hi.same_gen h hn hj hd).1⟩
  have quiet : w.holdsBuf i s → w'.blocks = w.blocks → ∃ blk blk', RelayAccess w w' s r blk blk' := by
    intro hs hw
    obtain ⟨blk, hc, hb, hu, hg, ho⟩ := found hs
    exact ⟨blk, blk, hc, hb, by rw [hw, hb], rfl, rfl, fun c _ => by rw [hw], hu, hg, ho⟩
  cases hr with
  | check =>
    simp only [step, World.stepTask, ht, Option.bind_eq_bind, Option.bind_some, World.relayCheck] at hst
    obtain ⟨b, hc, hst⟩ := Option.bind_eq_some_iff.1 hst
    obtain ⟨blk, hb, hst⟩ := Option.bind_eq_some_iff.1 hst
    split at hst
    · rename_i hs
      split at hst <;> cases hst <;> exact quiet hs rfl
    · cases hst
  | clock =>
    simp only [step, World.stepTask, ht, Option.bind_eq_bind, Option.bind_some, World.readClock] at hst
    split at hst
    · rename_i hs
      cases hst; exact quiet hs rfl
    · cases hst
  | @stamp d now =>
    simp only [step, World.stepTask, ht, Option.bind_eq_bind, Option.bind_some, World.storeStamp] at hst
    obtain ⟨b, hc, hst⟩ := Option.bind_eq_some_iff.1 hst
    obtain ⟨blk, hb, hst⟩ := Option.bind_eq_some_iff.1 hst
    split at hst
    · rename_i hs
      obtain ⟨blk', hc', hb', hu, hg, ho⟩ := found hs
      rw [hc] at hc'; cases hc'
      rw [hb] at hb'; cases hb'
      cases hst
      exact ⟨blk, _, hc, hb, get_set_self hb, rfl, rfl,
        fun c hne => List.getElem?_set_ne (Ne.symm hne), hu, hg, ho⟩
    · cases hst

end

/-- Relaying an import, over any number of hops, returns the descriptor that the first one came from,
whatever else runs, and touches only the time stamp. -/
theorem relay_chain_one_descriptor {w : World} (h : Reachable w) {j : Nat} {r : DescRec}
    (hj : w.descs[j]? = some r) : RelayOk w j r where
  same k q hk hq := (h.inv.derived_same hk r q hj hq).2
  begins k _ i s hs hsrc := h.inv.relay_begins hs hsrc
  runs k hk t i s n task ht hr hsrc hs := h.inv.relay_runs ht hr hk hsrc hj hs
  returns k hk t s result ht hsrc := by
    have ho := h.inv.tasks t _ ht
    cases result with
    | none =>
      change s.src = none at ho
      rw [hsrc] at ho
      cases ho
    | some c =>
      obtain ⟨q, hc, -, -, hpar⟩ := ho
      have hd : Derived w j c := .relay hk hc (hpar.trans hsrc)
      exact ⟨c, q, rfl, hc, hpar.trans hsrc, (h.inv.derived_same hd r q hj hc).2, hd⟩
  access k hk t i s n task spurious w' ht hr hsrc hst := h.inv.relay_access ht hr hk hsrc hj hst

/-- The import of `exchange` is relayed, the relayed descriptor imported, and that import relayed again. -/
theorem relay_chain_one_descriptor_exchanged : ∃ w r q s, Reachable w ∧ w.descs[0]? = some r ∧
    r.parent = none ∧ w.descs[1]? = some q ∧ q.parent = some 0 ∧ w.holdsBuf 2 s ∧ s.src = some 1 ∧
    w.tasks[4]? = some (.relayCheck 2 s) ∧ RelayOk w 0 r := by
  have hw : (Machine.run step exchanged
    [.beginRelay 1, .task 2 false, .task 2 false, .task 2 false, .beginImport 1, .task 3 false,
      .task 3 false, .task 3 false, .task 3 false, .beginRelay 2]).isSome = true := rfl
  obtain ⟨w, hw⟩ := Option.isSome_iff_exists.1 hw
  have hr := exchanged_reachable.run hw
  cases hw
  exact ⟨_, _, _, _, hr, rfl, rfl, rfl, rfl, rfl, rfl, rfl, relay_chain_one_descriptor hr rfl⟩

end MemfdBuffer.Atomic
