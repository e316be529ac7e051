import MemfdBuffer.Windows.System

/-!
# Names and sections

A name stands for a section as long as anybody has the section open, and a block's section is made new under a name
that stood for none. So whatever a process has mapped before, importing a block by its name leads to this block.
-/

namespace MemfdBuffer.Windows

open Import (CacheKey Checks Failure Message SharedBufferImportedBlock SharedBufferPlatformMapping payloadOffset)
open NamedObjects (Keeps)

variable {s : System} {p q k b : Nat} {process : Process} {block : Block} {d : Message} {e : ImportEnv}
  {t t' t₀ : Sections} {cache cache' cache₀ : Cache} {imported : SharedBufferImportedBlock} {o : Nat}

/-- Processes 0 and 1 start, and process 0 makes a block. -/
def publish : List Event := [.spawn 1, .spawn 2, .createPool 0, .createBlock 0 0 8 5 {}]

def published : System := (Machine.run System.step {} publish).getD {}

/-- The descriptor of that block. -/
def publishedMessage : Message where
  size := 8
  elementTypeName := uint8TypeName
  sharedBufferPid := 1
  sharedBufferBlockId := 0
  sharedBufferBlockSize := 72
  sharedBufferSocketPath := mappingName 1 5 0
  ipcUid := 7

/-- Its header is what the descriptor tells. -/
def publishedEnv : ImportEnv := { seen := fun _ _ => { payloadSize := 8, ipcUid := 7 } }

theorem published_reachable : Reachable published :=
  Machine.Reach.run (.start rfl) (rfl : Machine.run System.step {} publish = some published)

/-- The name of a mapping stands for its section. -/
theorem Inv.find_eq (hi : Inv s) {x : Slot} {m : SharedBufferPlatformMapping} (hm : s.mappingAt x = some m) :
    ∃ o, Mapping s.sections x.process o m.nativeHandle m.mapping ∧ s.sections.find (widenAscii m.ipcName) = some o := by
  obtain ⟨o, hmap, hn⟩ := hi.mapped hm
  obtain ⟨h, v, -, hh⟩ := hmap.held
  exact ⟨o, hmap, hi.wf.find_eq (NamedObjects.live_iff.2 ⟨v, _, hh.view⟩) hn⟩

/-- What an import returns is a mapping of the section that the name in its descriptor stands for. -/
theorem Inv.import_section (hi : Inv s) (hp : s.running p = some process)
    (h : importBlock s.sections process.cache p d e = (t', cache', .ok imported)) :
    ∃ o, s.sections.find (widenAscii d.sharedBufferSocketPath) = some o ∧ sectionOf t' imported.mapping = some o := by
  cases importBlock_cases hi.wf h with
  | found hc hval =>
    have hm : s.mappingAt (.entry p d.key) = some (entryPlatform d.key imported) := by
      rw [System.mappingAt, System.entryAt_of_running hp, hc]
      rfl
    obtain ⟨o, hmap, hf⟩ := hi.find_eq hm
    exact ⟨o, hf, hmap.sectionOf⟩
  | opened hc hf ho hh hv hval =>
    exact ⟨_, hf, by rw [hv]; exact sectionOf_eq ho.view⟩

/-- An import by the name of a block maps this block, whatever the cache has, and no other block. -/
theorem importBlock_maps_block (h : Reachable s) (hp : s.running p = some process) (hb : s.blockAt q k b = some block)
    (hd : d.sharedBufferSocketPath = registerBlock block)
    (him : importBlock s.sections process.cache p d e = (t', cache', .ok imported)) :
    sectionOf t' imported.mapping = sectionOf s.sections block.mapping ∧
      ∀ q' k' b' other, s.blockAt q' k' b' = some other →
        sectionOf s.sections other.mapping = sectionOf t' imported.mapping → q' = q ∧ k' = k ∧ b' = b := by
  have hi := Inv.of_reachable h
  have hm : s.mappingAt (.block q k b) = some block.platform := by rw [System.mappingAt, hb]; rfl
  obtain ⟨o, hmap, hf⟩ := hi.find_eq hm
  have hname : registerBlock block = block.socketPath := by
    obtain ⟨hd', v, hn, -⟩ := hmap
    have hn : block.nativeHandle = hd' := hn
    rw [registerBlock, hn, if_neg (Int.not_lt.2 (Int.natCast_nonneg _))]
  obtain ⟨o', hf', hsec⟩ := hi.import_section hp him
  rw [hd, hname] at hf'
  obtain rfl : o' = o := Option.some.inj (hf'.symm.trans hf)
  have hblock : sectionOf s.sections block.mapping = some o' := hmap.sectionOf
  refine ⟨hsec.trans hblock.symm, fun q' k' b' other hb' heq => ?_⟩
  have hm' : s.mappingAt (.block q' k' b') = some other.platform := by rw [System.mappingAt, hb']; rfl
  exact hi.distinct hm' hm (heq.trans (hsec.trans hblock.symm))

theorem importBlock_maps_block_published : ∃ process block t' cache' imported,
    published.running 1 = some process ∧ published.blockAt 0 0 0 = some block ∧
      importBlock published.sections process.cache 1 publishedMessage publishedEnv = (t', cache', .ok imported) ∧
      sectionOf t' imported.mapping = sectionOf published.sections block.mapping :=
  ⟨_, _, _, _, _, rfl, rfl, rfl, (importBlock_maps_block (p := 1) (q := 0) (k := 0) (b := 0) (d := publishedMessage)
    (e := publishedEnv) published_reachable rfl rfl rfl rfl).1⟩

/-! ### A new block -/

/-- `create_platform_mapping` takes the first of its eight names that is free and makes a section that nobody has; or
it throws, and has opened nothing. Where no call fails it throws only if all names are in use. -/
theorem createPlatformMapping_fresh (h : Reachable s) {pid : UInt32} {size : UInt64} {blockId : UInt32} {nonce : UInt64}
    {e : CreateEnv} {r : Except Exn SharedBufferPlatformMapping}
    (hr : createPlatformMapping s.sections p pid size blockId nonce e = (t', r)) :
    (∀ m, r = .ok m → ∃ i o, i < 8 ∧ m.ipcName = attemptName pid nonce blockId i ∧
      (∀ j < i, s.sections.find (widenAscii (attemptName pid nonce blockId j)) ≠ none) ∧
      s.sections.find (widenAscii m.ipcName) = none ∧ Mapping t' p o m.nativeHandle m.mapping ∧
      t'.objects[o]? = some (widenAscii m.ipcName, size) ∧
      ∀ x n, s.mappingAt x = some n → sectionOf t' n.mapping = sectionOf s.sections n.mapping ∧
        sectionOf t' n.mapping ≠ some o) ∧
    (∀ x, r = .error x → ∀ q, t'.ref q = s.sections.ref q) ∧
    ((∀ i, e.create i = none) → e.view = none → ((∃ m, r = .ok m) ↔
      ∃ i < 8, s.sections.find (widenAscii (attemptName pid nonce blockId i)) = none)) := by
  have hi := Inv.of_reachable h
  cases createPlatformMapping_cases hi.wf hr with
  | exhausted hk hall =>
    refine ⟨fun m hm => (by cases hm), fun x _ q => hk.refs List.not_mem_nil, fun _ _ => ?_⟩
    refine ⟨fun ⟨m, hm⟩ => (by cases hm), fun ⟨i, hlt, hfree⟩ => absurd hfree (hall i hlt).2⟩
  | failed hf herr hk =>
    refine ⟨fun m hm => (by cases hm), fun x _ q => hk.refs List.not_mem_nil, fun hnone _ => ?_⟩
    rw [hnone] at herr
    cases herr
  | unviewed hf _ _ hview hk =>
    refine ⟨fun m hm => (by cases hm), fun x _ q => hk.refs List.not_mem_nil, fun _ hnone => ?_⟩
    rw [hnone] at hview
    cases hview
  | @made i _ v hf hnone hfree hview ho hobj =>
    have hlt : i < 8 := by have := hf.lt; omega
    refine ⟨fun m hm => ?_, fun x hx => (by cases hx), fun _ _ => iff_of_true ⟨_, rfl⟩ ⟨i, hlt, hfree⟩⟩
    cases hm
    refine ⟨i, s.sections.objects.length, hlt, rfl, fun j hj => (hf.taken j (Nat.zero_le j) hj).2, hfree,
      ⟨_, v, rfl, rfl, ho.toHolds⟩, by rw [hobj, List.getElem?_concat_length], fun x n hn => ?_⟩
    obtain ⟨o, hmap, -⟩ := hi.mapped hn
    have hmap' : Mapping t' x.process o n.nativeHandle n.mapping := by
      refine hmap.keep fun r hr => ho.keeps.refs fun hm => ?_
      obtain ⟨h', v', hheld, hh⟩ := hmap.held
      have hold : r < s.sections.refs.length := by
        rw [hheld] at hr
        rcases List.mem_cons.1 hr with rfl | hr
        · exact NamedObjects.ref_lt hh.view
        · rw [List.mem_singleton.1 hr]
          exact NamedObjects.ref_lt hh.handle
      rcases List.mem_cons.1 hm with rfl | hm
      · exact absurd hold (Nat.not_lt.2 ho.handleNew)
      · rw [List.mem_singleton.1 hm] at hold
        exact absurd hold (Nat.not_lt.2 ho.viewNew)
    rw [hmap'.sectionOf, hmap.sectionOf]
    refine ⟨rfl, fun heq => ?_⟩
    cases heq
    exact absurd (hmap.lt hi.wf) (Nat.lt_irrefl _)

/-- Another process with the same ID, nonce and block ID gets the name of the second attempt. -/
theorem createPlatformMapping_fresh_published : ∃ t' m i o,
    createPlatformMapping published.sections 1 1 72 0 5 {} = (t', .ok m) ∧ m.ipcName = attemptName 1 5 0 i ∧
      published.sections.find (widenAscii m.ipcName) = none ∧ Mapping t' 1 o m.nativeHandle m.mapping := by
  generalize hr : createPlatformMapping published.sections 1 1 72 0 5 {} = r
  obtain ⟨t', r⟩ := r
  have hall := createPlatformMapping_fresh published_reachable hr
  obtain ⟨m, rfl⟩ := (hall.2.2 (fun _ => rfl) rfl).2 ⟨1, by decide, rfl⟩
  obtain ⟨i, o, -, hname, -, hfree, hmap, -⟩ := hall.1 m rfl
  exact ⟨t', m, i, o, rfl, hname, hfree, hmap⟩

/-! ### The cache -/

/-- A call that finds a mapping would also succeed without the cache, if nothing fails. -/
theorem importBlock_reopens (hi : Inv s) (hp : s.running p = some process) (hw : e.openError = none ∧ e.view = none)
    (ha : e.imported = true ∧ e.node = true)
    (h : importBlock s.sections process.cache p d e = (t', cache', .ok imported)) :
    ∃ t₀ cache₀ uncached, importBlock s.sections [] p d e = (t₀, cache₀, .ok uncached) := by
  obtain ⟨o, hf, hsec⟩ := hi.import_section hp h
  cases importBlock_cases hi.wf h with
  | opened hc hf' ho hh hv hval =>
    cases hr : importBlock s.sections [] p d e with
    | mk t₀ r =>
      obtain ⟨cache₀, r₀⟩ := r
      rw [importBlock_uncached hc hr] at h
      have hr₀ := congrArg (·.2.2) h
      dsimp only at hr₀
      rw [hr₀]
      exact ⟨_, _, _, rfl⟩
  | found hc hval =>
    unfold importBlock at h ⊢
    split at h
    · cases h
    · rename_i hmeta
      rw [if_neg hmeta]
      have hself : (s.sections.refer p o).ref s.sections.refs.length = some (p, o) := by
        rw [NamedObjects.ref_refer, if_pos rfl]
      have hview : ((s.sections.refer p o).refer p o).ref (s.sections.refer p o).refs.length = some (p, o) := by
        rw [NamedObjects.ref_refer, if_pos rfl]
      have hopen : importPlatformMapping s.sections p d.sharedBufferSocketPath d.sharedBufferBlockSize e =
          ((s.sections.refer p o).refer p o, .ok
            { nativeHandle := s.sections.refs.length, mapping := some (s.sections.refer p o).refs.length,
              mappedSize := d.sharedBufferBlockSize, ipcName := d.sharedBufferSocketPath }) := by
        rw [importPlatformMapping, hw.1, hf]
        dsimp only
        unfold mapView
        rw [hw.2, hself]
      have hval' : validate ((s.sections.refer p o).refer p o)
          { nativeHandle := s.sections.refs.length, mapping := some (s.sections.refer p o).refs.length,
            mappedSize := d.sharedBufferBlockSize, ipcName := d.sharedBufferSocketPath } d e = .ok () := by
        refine validate_ok.2 ⟨Option.some_ne_none _, rfl, ?_⟩
        have := (validate_ok.1 hval).2.2
        rw [header, hsec] at this
        rw [header, sectionOf_eq hview]
        exact this
      dsimp only [List.lookup_nil]
      rw [importUncached, hopen]
      dsimp only
      rw [ha.1, hval', ha.2]
      exact ⟨_, _, _, rfl⟩

/-- With truthful descriptors the cache hides nothing: a call that would succeed without it succeeds, with the same
section; and the other way round, unless the cache saves it from a failing call. -/
theorem importBlock_transparent (h : Machine.ReachIf System.step Init Truthful s) (hp : s.running p = some process)
    (ht : Truthful s (.importBlock p d e)) :
    (∀ t₀ cache₀ uncached, importBlock s.sections [] p d e = (t₀, cache₀, .ok uncached) →
      ∃ t₁ cache₁ cached, importBlock s.sections process.cache p d e = (t₁, cache₁, .ok cached) ∧
        ∃ o, sectionOf t₀ uncached.mapping = some o ∧ sectionOf t₁ cached.mapping = some o) ∧
    (e.openError = none ∧ e.view = none → e.imported = true ∧ e.node = true → ∀ t₁ cache₁ cached,
      importBlock s.sections process.cache p d e = (t₁, cache₁, .ok cached) →
      ∃ t₀ cache₀ uncached, importBlock s.sections [] p d e = (t₀, cache₀, .ok uncached)) := by
  have hi := Inv.of_reachable h.reach
  refine ⟨fun t₀ cache₀ uncached h₀ => ?_, fun hw ha _ _ _ h₁ => importBlock_reopens hi hp hw ha h₁⟩
  cases importBlock_cases hi.wf h₀ with
  | found hnone => cases hnone
  | opened _ hf₀ ho _ hv hval =>
    have hsec₀ := sectionOf_eq ho.view
    rw [← hv] at hsec₀
    cases hc : process.cache.lookup d.key with
    | none => exact ⟨_, _, _, importBlock_uncached hc h₀, _, hsec₀, hsec₀⟩
    | some existing =>
      have hm : s.mappingAt (.entry p d.key) = some (entryPlatform d.key existing) := by
        rw [System.mappingAt, System.entryAt_of_running hp, hc]
        rfl
      obtain ⟨o, hmap, hf⟩ := hi.find_eq hm
      obtain rfl : _ = o := Option.some.inj (hf₀.symm.trans hf)
      have hsec := hmap.sectionOf
      have hval' : validate s.sections existing d e = .ok () := by
        refine validate_ok.2 ⟨fun hnone => ?_, ?_, ?_⟩
        · have hsec : sectionOf s.sections existing.mapping = some _ := hsec
          rw [hnone] at hsec
          cases hsec
        · exact Option.some.inj ((Sized.of_truthful h _ _ _ hm hsec).symm.trans (ht _ hf₀))
        · have hchecks := (validate_ok.1 hval).2.2
          rw [header, hsec₀] at hchecks
          rw [header, show sectionOf s.sections existing.mapping = some _ from hsec]
          exact hchecks
      refine ⟨s.sections, process.cache, existing, ?_, _, hsec₀, hsec⟩
      unfold importBlock at h₀ ⊢
      split at h₀
      · cases h₀
      · rename_i hmeta
        rw [if_neg hmeta, hc]
        dsimp only
        rw [hval']

/-- Process 1 has imported the block. -/
def sharing : List Event := publish ++ [.importBlock 1 publishedMessage publishedEnv]

def shared : System := (Machine.run System.step {} sharing).getD {}

theorem truthful_published : Truthful published (.importBlock 1 publishedMessage publishedEnv) := fun o ho => by
  rw [show o = 0 from Option.some.inj (ho.symm.trans rfl)]
  rfl

theorem truthful_shared : Truthful shared (.importBlock 1 publishedMessage publishedEnv) := fun o ho => by
  rw [show o = 0 from Option.some.inj (ho.symm.trans rfl)]
  rfl

theorem shared_reached : Machine.ReachIf System.step Init Truthful shared := by
  have hpub : Machine.ReachIf System.step Init Truthful published := by
    refine .run (.start rfl) ?_ (rfl : Machine.run System.step {} publish = some published)
    exact ⟨trivial, fun s₁ h₁ => ⟨trivial, fun s₂ h₂ => ⟨trivial, fun s₃ h₃ => ⟨trivial, fun _ _ => trivial⟩⟩⟩⟩
  exact .next hpub truthful_published rfl

theorem importBlock_transparent_shared : ∃ process cached, shared.running 1 = some process ∧
    process.cache.lookup publishedMessage.key = some cached ∧ ∃ t₁ cache₁ cached',
      importBlock shared.sections process.cache 1 publishedMessage publishedEnv = (t₁, cache₁, .ok cached') := by
  refine ⟨_, _, rfl, rfl, ?_⟩
  obtain ⟨t₁, cache₁, cached, h, -⟩ :=
    (importBlock_transparent (p := 1) (d := publishedMessage) (e := publishedEnv) shared_reached rfl truthful_shared).1
      _ _ _ rfl
  exact ⟨t₁, cache₁, cached, h⟩

/-! ### How long a section lives -/

/-- A section lives as long as a block or a cache entry of a running process maps it. Its references are their handles
and views, and none is closed twice. -/
theorem section_lives (h : Reachable s) :
    (∀ o, s.sections.live o = true ↔ ∃ x m, s.mappingAt x = some m ∧ sectionOf s.sections m.mapping = some o) ∧
      (∀ r p o, s.sections.ref r = some (p, o) ↔ ∃ x m, x.process = p ∧ s.mappingAt x = some m ∧
        sectionOf s.sections m.mapping = some o ∧ r ∈ held m.nativeHandle m.mapping) ∧
      s.sections.closes.Nodup ∧ ∀ r ∈ s.sections.closes, s.sections.ref r = none := by
  have hi := Inv.of_reachable h
  have hrefs : ∀ r p o, s.sections.ref r = some (p, o) ↔ ∃ x m, x.process = p ∧ s.mappingAt x = some m ∧
      sectionOf s.sections m.mapping = some o ∧ r ∈ held m.nativeHandle m.mapping := fun r p o => by
    constructor
    · intro hr
      obtain ⟨x, hx⟩ := hi.owned.owner hr
      cases hm : s.mappingAt x with
      | none =>
        rw [System.slot_nil hm] at hx
        cases hx
      | some m =>
        rw [System.slot_of_mappingAt hm] at hx
        obtain ⟨o', hmap, -⟩ := hi.mapped hm
        obtain ⟨h, v, hheld, hh⟩ := hmap.held
        have hr' : s.sections.ref r = some (x.process, o') := by
          rw [hheld] at hx
          rcases List.mem_cons.1 hx with rfl | hx
          · exact hh.view
          · rw [List.mem_singleton.1 hx]
            exact hh.handle
        rw [hr] at hr'
        cases hr'
        exact ⟨x, m, rfl, hm, hmap.sectionOf, hx⟩
    · rintro ⟨x, m, rfl, hm, hsec, hr⟩
      obtain ⟨o', hmap, -⟩ := hi.mapped hm
      rw [hmap.sectionOf] at hsec
      cases hsec
      obtain ⟨h, v, hheld, hh⟩ := hmap.held
      rw [hheld] at hr
      rcases List.mem_cons.1 hr with rfl | hr
      · exact hh.view
      · rw [List.mem_singleton.1 hr]
        exact hh.handle
  refine ⟨fun o => ?_, hrefs, hi.wf.closes, fun r hr => (hi.wf.closed hr).2⟩
  rw [NamedObjects.live_iff]
  constructor
  · rintro ⟨r, p, hr⟩
    obtain ⟨x, m, -, hm, hsec, -⟩ := (hrefs r p o).1 hr
    exact ⟨x, m, hm, hsec⟩
  · rintro ⟨x, m, hm, hsec⟩
    obtain ⟨o', hmap, -⟩ := hi.mapped hm
    obtain ⟨h, v, hheld, -⟩ := hmap.held
    exact ⟨v, x.process, (hrefs v _ o).2 ⟨x, m, rfl, hm, hsec, by rw [hheld]; exact List.mem_cons_self⟩⟩

theorem section_lives_shared : shared.sections.live 0 = true ∧ ∃ x m, shared.mappingAt x = some m ∧
    sectionOf shared.sections m.mapping = some 0 :=
  ⟨rfl, ((section_lives shared_reached.reach).1 0).1 rfl⟩

end MemfdBuffer.Windows
