import MemfdBuffer.Import.System

/-!
# What one `import_block` comes to

No assumption is made on the descriptor here: `import_block` checks less of it than its caller does.
-/

namespace MemfdBuffer.Import

/-- What it takes to get a block where the cache has none. -/
structure Creates (e : Env) (d : Message) : Prop where
  key : e.alloc .key = true
  name : e.alloc .name = true
  imported : e.alloc .imported = true
  node : e.alloc .node = true
  receives : Receives e d
  checks : Checks e d

/-- What `import_block` comes to behind a failed look-up. -/
inductive Missed (e : Env) (w : World) (d : Message) : World → Except Failure SharedBufferImportedBlock → Prop
  | refused {w' : World} {x : Failure} : ¬ Creates e d → w'.cache = w.cache → w'.mmaps = w.mmaps →
      Missed e w d w' (.error x)
  | dropped {w' : World} {x : Failure} : ¬ Creates e d → Receives e d → w'.cache = w.cache →
      w'.mmaps = w.mmaps ++ [d.sharedBufferBlockSize] → Missed e w d w' (.error x)
  | cached {w' : World} {block : SharedBufferImportedBlock} : Creates e d → Fresh w d block →
      w'.cache = Function.update w.cache d.key (some block) → w'.mmaps = w.mmaps ++ [d.sharedBufferBlockSize] →
      Missed e w d w' (.ok block)

section
variable {w w' : World} {e : Env} {d : Message} {block : SharedBufferImportedBlock}
  {r : Except Failure SharedBufferImportedBlock}

/-! ### One call -/

theorem Receives.path (h : Receives e d) :
    d.sharedBufferSocketPath ≠ "" ∧ d.sharedBufferSocketPath.utf8ByteSize < sunPathSize := by
  obtain ⟨fd, hfd⟩ := h.fd
  unfold receiveFdFromSocket at hfd
  split at hfd
  · cases hfd
  · rename_i hpath
    push Not at hpath
    exact hpath

theorem UncachedOutcome.missed (hkey : e.alloc .key = true) (h : UncachedOutcome e w d w' r) : Missed e w d w' r := by
  cases h with
  | refused hno hq => exact .refused (fun hi => hno hi.receives) hq.cache hq.mmaps
  | lost hrec hname h1 h2 _ _ => exact .dropped (fun hi => absurd hi.name (by rw [hname]; decide)) hrec h1 h2
  | dropped hrec _ hno h1 h2 _ _ => exact .dropped (fun hi => hno ⟨hi.imported, hi.node, hi.checks⟩) hrec h1 h2
  | cached hrec hname himp hnode hchecks hf h1 h2 _ _ =>
    exact .cached ⟨hkey, hname, himp, hnode, hrec, hchecks⟩ hf h1 h2

theorem importBlock_missed (hc : w.cache d.key = none)
    (h : w.importBlock e d.sharedBufferSocketPath d.sharedBufferPid d.sharedBufferBlockId
      d.sharedBufferBlockSize d.size d.ipcUid = (w', r)) : Missed e w d w' r := by
  cases importBlock_cases h with
  | refused hno => exact .refused (fun hi => hno ⟨hi.receives.path.1, hi.checks.offset, hi.key⟩) rfl rfl
  | rejected hcached _ _ =>
    rw [hc] at hcached
    cases hcached
  | found hcached _ _ =>
    rw [hc] at hcached
    cases hcached
  | uncached _ hkey ho => exact ho.missed hkey

theorem importBlock_hit (hc : w.cache d.key = some block)
    (h : w.importBlock e d.sharedBufferSocketPath d.sharedBufferPid d.sharedBufferBlockId
      d.sharedBufferBlockSize d.size d.ipcUid = (w', r)) :
    w'.cache = w.cache ∧ w'.mmaps = w.mmaps ∧
      (r = .ok block ∧ Revalidates e d block ∨ (∃ x, r = .error x) ∧ ¬ Revalidates e d block) := by
  cases importBlock_cases h with
  | refused hno => exact ⟨rfl, rfl, .inr ⟨⟨_, rfl⟩, fun hr => hno ⟨hr.path, hr.checks.offset, hr.key⟩⟩⟩
  | rejected hcached hq hno =>
    rw [hc] at hcached
    cases hcached
    exact ⟨hq.cache, hq.mmaps, .inr ⟨⟨_, rfl⟩, hno⟩⟩
  | found hcached hq hr =>
    rw [hc] at hcached
    cases hcached
    exact ⟨hq.cache, hq.mmaps, .inl ⟨rfl, hr⟩⟩
  | uncached hcached _ _ =>
    rw [hc] at hcached
    cases hcached

/-! ### Sizes -/

theorem Receives.size {c : ImportCall} {listener mapped : Option Memfd} (h : Receives (c.envAt listener mapped) d) :
    ∃ m, listener = some m ∧ UInt64.ofNat m.size = d.sharedBufferBlockSize := by
  obtain ⟨size, hsize, -, heq⟩ := h.stat
  obtain ⟨m, hm, hsize⟩ := Option.bind_eq_some_iff.1 hsize
  obtain ⟨_, -, rfl⟩ := Option.map_eq_some_iff.1 hsize
  exact ⟨m, hm, heq⟩

end

/-! ### The subscriber -/

namespace Subscriber

/-- There is a memfd to each mapping. -/
abbrev Backed (s : Subscriber) : Prop := s.backing.length = s.world.mmaps.length

/-- What a call comes to in the process that makes it. -/
inductive Imported (s : Subscriber) (listeners : String → Option Memfd) (c : ImportCall) :
    Subscriber → Except Failure SharedBufferImportedBlock → Prop
  | found {s' : Subscriber} {block : SharedBufferImportedBlock} : s.world.cache c.descriptor.key = some block →
      Revalidates (c.envAt (listeners c.descriptor.sharedBufferSocketPath) (s.memfdOf block)) c.descriptor block →
      s'.world.cache = s.world.cache → s'.backing = s.backing → s'.Backed → Imported s listeners c s' (.ok block)
  | rejected {s' : Subscriber} {block : SharedBufferImportedBlock} {x : Failure} :
      s.world.cache c.descriptor.key = some block →
      ¬ Revalidates (c.envAt (listeners c.descriptor.sharedBufferSocketPath) (s.memfdOf block)) c.descriptor block →
      s'.world.cache = s.world.cache → s'.backing = s.backing → s'.Backed → Imported s listeners c s' (.error x)
  | refused {s' : Subscriber} {x : Failure} : s.world.cache c.descriptor.key = none →
      ¬ Creates (c.envAt (listeners c.descriptor.sharedBufferSocketPath)
        (listeners c.descriptor.sharedBufferSocketPath)) c.descriptor →
      s'.world.cache = s.world.cache → s.backing <+: s'.backing → s'.Backed → Imported s listeners c s' (.error x)
  | created {s' : Subscriber} {block : SharedBufferImportedBlock} {m : Memfd} :
      s.world.cache c.descriptor.key = none →
      Creates (c.envAt (listeners c.descriptor.sharedBufferSocketPath)
        (listeners c.descriptor.sharedBufferSocketPath)) c.descriptor →
      listeners c.descriptor.sharedBufferSocketPath = some m → s'.memfdOf block = some m →
      block.mappedSize = c.descriptor.sharedBufferBlockSize →
      s'.world.cache = Function.update s.world.cache c.descriptor.key (some block) → s.backing <+: s'.backing →
      s'.Backed → Imported s listeners c s' (.ok block)

variable {s s' : Subscriber} {listeners : String → Option Memfd} {c : ImportCall} {block : SharedBufferImportedBlock}
  {m : Memfd} {r : Except Failure SharedBufferImportedBlock}

theorem memfdOf_mono (h : s.backing <+: s'.backing) (hm : s.memfdOf block = some m) : s'.memfdOf block = some m := by
  obtain ⟨j, hj, hget⟩ := Option.bind_eq_some_iff.1 hm
  obtain ⟨l, hl⟩ := h
  refine Option.bind_eq_some_iff.2 ⟨j, hj, ?_⟩
  rw [← hl, List.getElem?_append_left (List.getElem?_eq_some_iff.1 hget).1]
  exact hget

theorem target_found {d : Message} (hc : s.world.cache d.key = some block) :
    s.target listeners d = s.memfdOf block := by
  rw [target, hc]

theorem target_none {d : Message} (hc : s.world.cache d.key = none) :
    s.target listeners d = listeners d.sharedBufferSocketPath := by
  rw [target, hc]

theorem importBlock_found (hb : s.Backed) (hc : s.world.cache c.descriptor.key = some block)
    (h : s.importBlock listeners c = (s', r)) : Imported s listeners c s' r := by
  unfold importBlock at h
  dsimp only at h
  rw [target_found hc] at h
  generalize himp : s.world.importBlock _ _ _ _ _ _ _ = q at h
  obtain ⟨world, r'⟩ := q
  cases h
  obtain ⟨hcache, hmmaps, ⟨rfl, hval⟩ | ⟨⟨x, rfl⟩, hval⟩⟩ := importBlock_hit hc himp
  · exact .found hc hval hcache (if_pos (by rw [hmmaps])) (by rw [Backed, if_pos (by rw [hmmaps]), hb, hmmaps])
  · exact .rejected hc hval hcache (if_pos (by rw [hmmaps])) (by rw [Backed, if_pos (by rw [hmmaps]), hb, hmmaps])

theorem importBlock_created (hb : s.Backed) (hc : s.world.cache c.descriptor.key = none)
    (h : s.importBlock listeners c = (s', r)) : Imported s listeners c s' r := by
  unfold importBlock at h
  dsimp only at h
  rw [target_none hc] at h
  generalize himp : s.world.importBlock _ _ _ _ _ _ _ = q at h
  obtain ⟨world, r'⟩ := q
  cases h
  rcases importBlock_missed hc himp with ⟨hno, hcache, hmmaps⟩ | ⟨hno, hrec, hcache, hmmaps⟩ | ⟨hcr, hf, hcache, hmmaps⟩
  · refine .refused hc hno hcache ?_ ?_
    · rw [if_pos (by rw [hmmaps])]
    · rw [Backed, if_pos (by rw [hmmaps]), hb, hmmaps]
  · obtain ⟨m, hm, -⟩ := hrec.size
    have hne : world.mmaps.length ≠ s.world.mmaps.length := by
      rw [hmmaps, List.length_append, List.length_singleton]
      omega
    refine .refused hc hno hcache ?_ ?_
    · rw [if_neg hne]
      exact List.prefix_append ..
    · rw [Backed, if_neg hne, hm, hmmaps, List.length_append, List.length_append, hb]
      rfl
  · obtain ⟨m, hm, -⟩ := hcr.receives.size
    have hne : world.mmaps.length ≠ s.world.mmaps.length := by
      rw [hmmaps, List.length_append, List.length_singleton]
      omega
    refine .created hc hcr hm ?_ hf.size hcache ?_ ?_
    · rw [memfdOf, hf.mapping, Option.bind_some, if_neg hne, hm, ← hb]
      exact List.getElem?_concat_length ..
    · rw [if_neg hne]
      exact List.prefix_append ..
    · rw [Backed, if_neg hne, hm, hmmaps, List.length_append, List.length_append, hb]
      rfl

theorem importBlock_imported (hb : s.Backed) (h : s.importBlock listeners c = (s', r)) :
    Imported s listeners c s' r := by
  cases hc : s.world.cache c.descriptor.key with
  | none => exact importBlock_created hb hc h
  | some block => exact importBlock_found hb hc h

end Subscriber

end MemfdBuffer.Import
