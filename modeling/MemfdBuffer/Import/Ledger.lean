import MemfdBuffer.Import.Accept
import Mathlib.Data.List.Perm.Basic

/-!
# What a subscriber keeps

Over all its imports, accepted or not, a process keeps one descriptor and one mapping for each block in its cache. Beyond
that it loses the second descriptor of a reply that carries two. Two failing allocations would cost it more: the one of
the name in the mapping that `import_platform_mapping` returns, and the one of the message when `connect` or `mmap` has
failed.
-/

namespace MemfdBuffer.Import

/-- Neither of the two allocations fails. -/
structure Careful (e : Env) : Prop where
  name : e.alloc .name = true
  message : e.alloc .message = true

/-- The descriptors beyond `base` are those of the cached blocks and those that nobody has read; each region ever mapped
is that of a cached block or has been unmapped once. -/
structure Ledger (base : List Int) (w : World) (entries : List (CacheKey × SharedBufferImportedBlock)) : Prop where
  keys : (entries.map Prod.fst).Nodup
  cache (key : CacheKey) (block : SharedBufferImportedBlock) : w.cache key = some block ↔ (key, block) ∈ entries
  fds : w.fds.Perm (base ++ entries.map (·.2.nativeHandle) ++ w.stray)
  regions : (w.unmapped ++ entries.filterMap (·.2.mapping)).Perm (List.range w.mmaps.length)

namespace World

/-- All that the ledger is about. -/
def holdings (w : World) :
    (CacheKey → Option SharedBufferImportedBlock) × List UInt64 × List Nat × List Int × List Int :=
  (w.cache, w.mmaps, w.unmapped, w.fds, w.stray)

end World

/-- Of the descriptors received beyond `fds`, nobody has read any. -/
def Strays (fds : List Int) (w w' : World) : Prop := ∃ l, w'.stray = w.stray ++ l ∧ w'.fds.Perm (fds ++ l)

/-- Nothing is held that was not held before. -/
structure Level (w w' : World) : Prop where
  cache : w'.cache = w.cache
  mmaps : w'.mmaps = w.mmaps
  unmapped : w'.unmapped = w.unmapped
  fds : Strays w.fds w w'

/-- What `import_platform_mapping` does to the holdings. -/
inductive Mapped (w : World) (size : UInt64) : World → Except Failure SharedBufferPlatformMapping → Prop
  | failed {w' : World} {x : Failure} : Level w w' → Mapped w size w' (.error x)
  | opened {w' : World} {m : SharedBufferPlatformMapping} : w'.cache = w.cache → w'.mmaps = w.mmaps ++ [size] →
      w'.unmapped = w.unmapped → Strays (w.fds ++ [m.nativeHandle]) w w' → 0 ≤ m.nativeHandle →
      m.mapping = some w.mmaps.length → m.mappedSize = size → Mapped w size w' (.ok m)

/-- What `import_block` does to them. -/
inductive Settles (w : World) (key : CacheKey) : World → Except Failure SharedBufferImportedBlock → Prop
  | level {w' : World} {r : Except Failure SharedBufferImportedBlock} : Level w w' → Settles w key w' r
  | dropped {w' : World} {x : Failure} {size : UInt64} : w'.cache = w.cache → w'.mmaps = w.mmaps ++ [size] →
      w'.unmapped = w.unmapped ++ [w.mmaps.length] → Strays w.fds w w' → Settles w key w' (.error x)
  | cached {w' : World} {block : SharedBufferImportedBlock} {size : UInt64} : w.cache key = none →
      w'.cache = Function.update w.cache key (some block) → w'.mmaps = w.mmaps ++ [size] → w'.unmapped = w.unmapped →
      Strays (w.fds ++ [block.nativeHandle]) w w' → block.mapping = some w.mmaps.length → Settles w key w' (.ok block)

variable {w w' w₁ : World} {e : Env} {d : Message} {key : CacheKey} {block : SharedBufferImportedBlock}
  {base : List Int}
  {entries : List (CacheKey × SharedBufferImportedBlock)} {size payload uid : UInt64}

theorem Level.of_holdings (h : w'.holdings = w.holdings) : Level w w' := by
  simp only [World.holdings, Prod.mk.injEq] at h
  exact ⟨h.1, h.2.1, h.2.2.1, [], by rw [h.2.2.2.2, List.append_nil], by rw [h.2.2.2.1, List.append_nil]⟩

theorem Level.refl (w : World) : Level w w := .of_holdings rfl

theorem erase_middle (l l' : List Int) (fd : Int) : ((l ++ fd :: l').erase fd).Perm (l ++ l') := by
  have h : ((l ++ fd :: l').erase fd).Perm ((fd :: (l ++ l')).erase fd) := List.perm_middle.erase fd
  rwa [List.erase_cons_head] at h

theorem Strays.congr {fds : List Int} (h : Strays fds w w₁) (hf : w'.fds = w₁.fds) (hs : w'.stray = w₁.stray) :
    Strays fds w w' := by
  obtain ⟨l, hl, hperm⟩ := h
  exact ⟨l, hs.trans hl, by rw [hf]; exact hperm⟩

/-- The descriptor that was read is closed. -/
theorem Strays.close {fd : Int} (h : Strays (w.fds ++ [fd]) w w₁) : Strays w.fds w (w₁.closeFd fd) := by
  obtain ⟨l, hl, hf⟩ := h
  refine ⟨l, hl, ?_⟩
  rw [List.append_assoc, List.singleton_append] at hf
  exact (hf.erase fd).trans (erase_middle ..)

/-! ### One call -/

theorem importPlatformMapping_mapped {ipcName : String} {r : Except Failure SharedBufferPlatformMapping}
    (he : Careful e)
    (h : w.importPlatformMapping e ipcName size = (w', r)) : Mapped w size w' r := by
  unfold World.importPlatformMapping at h
  split at h
  · cases h
    exact .failed (.refl w)
  · rename_i fd hfd
    have hpos : 0 ≤ fd.toInt := by
      unfold receiveFdFromSocket at hfd
      split at hfd
      · cases hfd
      · split at hfd
        · cases hfd
        · split at hfd
          · split at hfd <;> cases hfd
          · split at hfd
            · cases hfd
            · split at hfd
              · cases hfd
              · split at hfd
                · cases hfd
                · rename_i hneg
                  cases hfd
                  exact Int32.le_iff_toInt_le.1 (Int32.not_lt.1 hneg)
    generalize hstray : e.reply.spare.toList.map Int32.toInt = l at h
    have hfds : Strays (w.fds ++ [fd.toInt]) w { w with fds := w.fds ++ fd.toInt :: l, stray := w.stray ++ l } :=
      ⟨l, rfl, by rw [List.append_assoc, List.singleton_append]⟩
    dsimp only at h
    split at h
    · cases h
      exact .failed ⟨rfl, rfl, rfl, hfds.close⟩
    · split at h
      · rw [if_pos he.message] at h
        cases h
        exact .failed ⟨rfl, rfl, rfl, hfds.close⟩
      · rw [if_pos he.name] at h
        cases h
        exact .opened rfl rfl rfl hfds hpos rfl rfl

/-- The region and the descriptor that have just been opened are given back. -/
theorem destroyPlatformMapping_dropped {fd : Int} (hs : 0 < size) (hfd : 0 ≤ fd) (hc : w₁.cache = w.cache)
    (hm : w₁.mmaps = w.mmaps ++ [size]) (hu : w₁.unmapped = w.unmapped) (hf : Strays (w.fds ++ [fd]) w w₁)
    (x : Failure) :
    Settles w key (w₁.destroyPlatformMapping fd (some w.mmaps.length) size) (.error x) := by
  unfold World.destroyPlatformMapping
  dsimp only
  rw [if_pos hs, if_pos hfd]
  refine .dropped hc hm ?_ hf.close
  show w₁.unmapped ++ [w.mmaps.length] = _
  rw [hu]

theorem validateMapping_holdings (w : World) (e : Env) (block : SharedBufferImportedBlock) (size payload uid : UInt64) :
    (w.validateMapping e block size payload uid).1.holdings = w.holdings := by
  unfold World.validateMapping
  dsimp only
  split_ifs <;> rfl

theorem importUncached_settles {r : Except Failure SharedBufferImportedBlock} (he : Careful e) (hs : 0 < size)
    (hc : w.cache key = none) (h : w.importUncached e key size payload uid = (w', r)) : Settles w key w' r := by
  unfold World.importUncached at h
  split at h
  · rename_i w₁ x hmap
    cases h
    cases importPlatformMapping_mapped he hmap with
    | failed hl => exact .level hl
  · rename_i w₁ m hmap
    cases importPlatformMapping_mapped he hmap with
    | opened h1 h2 h3 h4 hpos hm hsize =>
      rw [hm, hsize] at h
      split at h
      · cases h
        exact destroyPlatformMapping_dropped hs hpos h1 h2 h3 h4 _
      · dsimp only at h
        split at h
        · rename_i w₂ x hv
          cases h
          have hhold := validateMapping_holdings w₁ e
            { nativeHandle := m.nativeHandle, mapping := some w.mmaps.length, mappedSize := size,
              ipcName := key.ipcName }
            size payload uid
          rw [hv] at hhold
          simp only [World.holdings, Prod.mk.injEq] at hhold
          exact destroyPlatformMapping_dropped hs hpos (hhold.1.trans h1) (hhold.2.1.trans h2) (hhold.2.2.1.trans h3)
            (h4.congr hhold.2.2.2.1 hhold.2.2.2.2) _
        · rename_i w₂ hv
          have hhold := validateMapping_holdings w₁ e
            { nativeHandle := m.nativeHandle, mapping := some w.mmaps.length, mappedSize := size,
              ipcName := key.ipcName }
            size payload uid
          rw [hv] at hhold
          simp only [World.holdings, Prod.mk.injEq] at hhold
          split at h
          · cases h
            exact destroyPlatformMapping_dropped hs hpos (hhold.1.trans h1) (hhold.2.1.trans h2) (hhold.2.2.1.trans h3)
              (h4.congr hhold.2.2.2.1 hhold.2.2.2.2) _
          · cases h
            refine .cached hc ?_ (hhold.2.1.trans h2) (hhold.2.2.1.trans h3) (h4.congr hhold.2.2.2.1 hhold.2.2.2.2) rfl
            show Function.update w₂.cache key _ = _
            rw [hhold.1.trans h1]

theorem importBlock_settles {r : Except Failure SharedBufferImportedBlock} {ipcName : String}
    {pid : Int32} {id : UInt32}
    (he : Careful e) (h : w.importBlock e ipcName pid id size payload uid = (w', r)) :
    Settles w { pid := pid, blockId := id, ipcName := ipcName } w' r := by
  unfold World.importBlock at h
  split at h
  · cases h
    exact .level (.refl w)
  · rename_i hmeta
    push Not at hmeta
    split at h
    · cases h
      exact .level (.refl w)
    · dsimp only at h
      split at h
      · rename_i existing hc
        have hhold := validateMapping_holdings w e existing size payload uid
        split at h <;> rename_i hv <;> cases h <;> rw [hv] at hhold <;> exact .level (.of_holdings hhold)
      · rename_i hc
        have hs : 0 < size := by
          have hoff := UInt64.le_iff_toNat_le.1 (UInt64.not_lt.1 hmeta.2.1)
          rw [toNat_payloadOffset] at hoff
          exact UInt64.lt_iff_toNat_lt.2 (Nat.lt_of_lt_of_le (by decide) hoff)
        exact importUncached_settles he hs hc h

theorem foldl_effect_holdings (l : List Effect) (w : World) : (l.foldl (World.effect · e) w).holdings = w.holdings := by
  induction l generalizing w with
  | nil => rfl
  | cons x l ih =>
    refine (ih _).trans ?_
    cases x <;> rfl

theorem buildBuffer_holdings (w : World) (e : Env) (block : SharedBufferImportedBlock) (d : Message) :
    (w.buildBuffer e block d).1.holdings = w.holdings := by
  unfold World.buildBuffer
  split
  · rfl
  · split
    · rfl
    · split
      · exact foldl_effect_holdings ..
      · rfl

theorem checkMessage_holdings (w : World) (e : Env) (d : Message) : (w.checkMessage e d).1.holdings = w.holdings := by
  unfold World.checkMessage
  dsimp only
  split_ifs <;> rfl

theorem acquireReader_holdings (w : World) (e : Env) (block : SharedBufferImportedBlock) :
    (w.acquireReader e block).1.holdings = w.holdings := by
  unfold World.acquireReader
  split
  · rfl
  · split <;> rfl

theorem releaseReader_holdings (w : World) (e : Env) (block : SharedBufferImportedBlock) :
    (w.releaseReader e block).holdings = w.holdings := by
  unfold World.releaseReader
  split <;> rfl

/-- What a call holds is settled by its `import_block`; a call that does not get there holds nothing. -/
theorem fromDescriptor_settles (he : Careful e) (o : Option Message) :
    (w.fromDescriptorWithEndpoint e o).1.holdings = w.holdings ∨
      ∃ w₁ key w₂ r, w₁.holdings = w.holdings ∧ Settles w₁ key w₂ r ∧
        (w.fromDescriptorWithEndpoint e o).1.holdings = w₂.holdings := by
  cases o with
  | none => exact .inl rfl
  | some d =>
    have hcheck := checkMessage_holdings w e d
    simp only [World.fromDescriptorWithEndpoint]
    split <;> rename_i w₁ q hq <;> rw [hq] at hcheck
    · exact .inl hcheck
    · refine .inr ?_
      split <;> rename_i w₂ r hi
      · exact ⟨_, _, _, _, hcheck, importBlock_settles he hi, rfl⟩
      · refine ⟨_, _, _, _, hcheck, importBlock_settles he hi, ?_⟩
        have hacq := acquireReader_holdings w₂ e r
        split <;> rename_i w₃ u ha <;> rw [ha] at hacq
        · exact hacq
        · split
          · exact (releaseReader_holdings ..).trans hacq
          · exact (buildBuffer_holdings ..).trans hacq

/-! ### Whole runs -/

namespace Ledger

theorem congr (h : w'.holdings = w.holdings) (hl : Ledger base w entries) : Ledger base w' entries := by
  simp only [World.holdings, Prod.mk.injEq] at h
  obtain ⟨hc, hm, hu, hf, hs⟩ := h
  exact ⟨hl.keys, by rw [hc]; exact hl.cache, by rw [hf, hs]; exact hl.fds, by rw [hm, hu]; exact hl.regions⟩

theorem strays {handles : List Int} (h : Strays (w.fds ++ handles) w w') (hl : Ledger base w entries) :
    w'.fds.Perm (base ++ (entries.map (·.2.nativeHandle) ++ handles) ++ w'.stray) := by
  obtain ⟨l, hs, hf⟩ := h
  rw [hs]
  refine hf.trans (((hl.fds.append_right handles).append_right l).trans ?_)
  simp only [List.append_assoc]
  exact (List.perm_append_comm_assoc ..).append_left _ |>.append_left _

theorem level (h : Level w w') (hl : Ledger base w entries) : Ledger base w' entries := by
  have hfds := h.fds
  rw [← List.append_nil w.fds] at hfds
  refine ⟨hl.keys, ?_, by simpa using hl.strays hfds, ?_⟩
  · rw [h.cache]
    exact hl.cache
  · rw [h.mmaps, h.unmapped]
    exact hl.regions

/-- A region that goes again leaves the cache as it was. -/
theorem dropped (hc : w'.cache = w.cache) (hm : w'.mmaps = w.mmaps ++ [size])
    (hu : w'.unmapped = w.unmapped ++ [w.mmaps.length]) (hf : Strays w.fds w w') (hl : Ledger base w entries) :
    Ledger base w' entries := by
  rw [← List.append_nil w.fds] at hf
  refine ⟨hl.keys, ?_, by simpa using hl.strays hf, ?_⟩
  · rw [hc]
    exact hl.cache
  · rw [hm, hu, List.length_append, List.length_singleton, List.range_succ, List.append_assoc]
    exact (List.perm_append_comm.append_left _).trans
      (by rw [← List.append_assoc]; exact hl.regions.append_right _)

/-- A region that stays gets an entry of its own. -/
theorem cached (hk : w.cache key = none) (hc : w'.cache = Function.update w.cache key (some block))
    (hm : w'.mmaps = w.mmaps ++ [size]) (hu : w'.unmapped = w.unmapped)
    (hf : Strays (w.fds ++ [block.nativeHandle]) w w')
    (hb : block.mapping = some w.mmaps.length) (hl : Ledger base w entries) :
    Ledger base w' (entries ++ [(key, block)]) := by
  have hnew : ∀ b, (key, b) ∉ entries := fun b hmem => by
    rw [(hl.cache key b).2 hmem] at hk
    cases hk
  refine ⟨?_, fun k b => ?_, ?_, ?_⟩
  · rw [List.map_append, List.map_singleton, List.nodup_append]
    refine ⟨hl.keys, List.nodup_singleton _, fun k hmem k' hmem' heq => ?_⟩
    obtain ⟨⟨k₀, b⟩, hb, rfl⟩ := List.mem_map.1 hmem
    cases heq.trans (List.mem_singleton.1 hmem')
    exact hnew b hb
  · rw [hc, Function.update_apply, List.mem_append, List.mem_singleton]
    split
    · rename_i heq
      subst heq
      rw [Option.some.injEq, or_iff_right (hnew b), Prod.mk.injEq, eq_self, true_and, eq_comm]
    · rename_i hne
      rw [hl.cache, or_iff_left fun heq => hne (congrArg Prod.fst heq)]
  · rw [List.map_append, List.map_singleton]
    exact hl.strays hf
  · rw [hm, hu, List.filterMap_append, List.length_append, List.length_singleton, List.range_succ,
      ← List.append_assoc]
    have hone : [(key, block)].filterMap (·.2.mapping) = [w.mmaps.length] := by simp [hb]
    rw [hone]
    exact hl.regions.append_right _

theorem settles {r : Except Failure SharedBufferImportedBlock} (h : Settles w key w' r) (hl : Ledger base w entries) :
    ∃ entries', Ledger base w' entries' := by
  cases h with
  | level h => exact ⟨_, hl.level h⟩
  | dropped hc hm hu hf => exact ⟨_, hl.dropped hc hm hu hf⟩
  | cached hk hc hm hu hf hb => exact ⟨_, hl.cached hk hc hm hu hf hb⟩

theorem step {op : ImportOp} (he : Careful op.env) (hs : step w op = some w') (hl : Ledger base w entries) :
    ∃ entries', Ledger base w' entries' := by
  cases hs
  rcases fromDescriptor_settles (w := w) he op.descriptor with h | ⟨w₁, key, w₂, r, h₁, hset, h₂⟩
  · exact ⟨_, hl.congr h⟩
  · obtain ⟨entries', hl'⟩ := (hl.congr h₁).settles hset
    exact ⟨entries', hl'.congr h₂⟩

end Ledger

/-- The process starts with the descriptors `base`. -/
def Starts (base : List Int) (w : World) : Prop := Init w ∧ w.fds = base ∧ w.stray = []

/-- Whatever has been imported, refused or thrown: what the process holds is what its cache holds, and what it was sent
without reading it. -/
theorem ledger_kept (h : Machine.ReachIf Import.step (Starts base) (fun _ op => Careful op.env) w) :
    ∃ entries, Ledger base w entries := by
  refine Machine.ReachIf.inv (P := fun w => ∃ entries, Ledger base w entries) (fun w hi => ?_)
    (fun w op w' hl he hs => ?_) h
  · obtain ⟨⟨hc, hm, hu, -⟩, hf, hs⟩ := hi
    refine ⟨[], .nil, fun key block => ?_, ?_, ?_⟩
    · rw [hc]
      constructor <;> intro hmem <;> cases hmem
    · rw [hf, hs, List.map_nil, List.append_nil, List.append_nil]
    · rw [hm, hu]
      exact .refl _
  · obtain ⟨entries, hl⟩ := hl
    exact hl.step he hs

/-- A stale descriptor, and then the right one, for which the server sends two descriptors. -/
theorem ledger_kept_stale :
    ∃ w entries, Machine.run Import.step { fds := [0, 1, 2] }
        [⟨{ sampleEnv with seen := fun _ => { payloadSize := 8, ipcUid := 8 } }, some sample⟩,
          ⟨{ sampleEnv with reply := { sampleEnv.reply with spare := some 4 } }, some sample⟩] = some w ∧
      w.mmaps.length = 2 ∧ w.stray = [4] ∧ Ledger [0, 1, 2] w entries := by
  refine ⟨_, _, rfl, rfl, rfl, (ledger_kept ?_ : ∃ entries, Ledger [0, 1, 2] _ entries).choose_spec⟩
  refine .next (.next (.start ⟨⟨rfl, rfl, rfl, rfl, rfl⟩, rfl, rfl⟩) ?_ rfl) ?_ rfl
  · exact ⟨rfl, rfl⟩
  · exact ⟨rfl, rfl⟩

end MemfdBuffer.Import
