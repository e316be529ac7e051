import MemfdBuffer.Import.Accept

/-!
# What a failed import leaves behind

Between `acquire_reader` and the finished `SharedBuffer` nothing owns the counted reader, and between `mmap`
and the finished `SharedBufferImportedBlock` only one of two allocations is guarded. Everywhere else an
exception takes back what the call has done.
-/

namespace MemfdBuffer.Import

/-- What a list of writes adds to the `reader_state` of mapping `m`. -/
def contribution (m : Nat) : List Touch → BitVec 32
  | [] => 0#32
  | t :: l => (if t.m = m then t.after.readerState - t.before.readerState else 0#32) + contribution m l

/-- The write leaves the identity and the stamp of the block alone. -/
structure Touch.Modest (t : Touch) : Prop where
  ipcUid : t.after.ipcUid = t.before.ipcUid
  publishTimestampUs : t.after.publishTimestampUs = t.before.publishTimestampUs

/-- The writes of a call that count nobody in or out. -/
structure Balanced (l : List Touch) : Prop where
  readers : ∀ m, contribution m l = 0#32
  modest : ∀ t ∈ l, t.Modest

/-- The cache has at most gained the entry of a mapping that was validated. -/
def CacheKept (e : Env) (w w' : World) : Option Message → Prop
  | none => w'.cache = w.cache
  | some d => w'.cache = w.cache ∨
      ∃ block, Validated e d block ∧ w.cache d.key = none ∧ w'.cache = Function.update w.cache d.key (some block)

/-- A call has changed nothing that outlives it. -/
structure NoLastingEffect (e : Env) (o : Option Message) (w w' : World) : Prop where
  touches : ∃ l, w'.touches = w.touches ++ l ∧ Balanced l
  cache : CacheKept e w w' o
  mappings : ∀ m, w.mmaps.length ≤ m → m < w'.mmaps.length →
    (∀ key block, w'.cache key = some block → block.mapping ≠ some m) → w'.unmapped.count m = 1

/-- `import_block` gives a block. -/
def Imports (e : Env) (w : World) (d : Message) : Prop :=
  (∃ block, Hits e w d block) ∨
    (Opens e w d ∧ e.alloc .name = true ∧ e.alloc .imported = true ∧ e.alloc .node = true ∧ HeaderMatches e d)

/-- No allocation fails where nothing is there to clean up: the name of a new mapping, and the closure and the
path while a reader is counted. -/
def Guarded (e : Env) (w : World) : Option Message → Prop
  | none => True
  | some d => Described d.descriptor →
      (Opens e w d → e.alloc .name = true) ∧
      (Imports e w d → Admits e → (e.seen .recheck).ipcUid = d.ipcUid →
        e.alloc .closure = true ∧ e.alloc .path = true)

section
variable {w w' w₁ : World} {e : Env} {d : Message} {l : List Touch} {m n : Nat} {x : Failure}
  {q : Except Failure SharedBufferImportedBlock} {block : SharedBufferImportedBlock}

/-! ### The writes -/

theorem modest_acquired : (acquired e m).Modest := ⟨rfl, rfl⟩

theorem modest_released : (released e m).Modest := ⟨rfl, rfl⟩

theorem balanced_nil : Balanced [] := by
  constructor
  · intro m
    rfl
  · intro t ht
    cases ht

/-- In and out again. -/
theorem balanced_acquired_released : Balanced [acquired e m, released e m] := by
  constructor
  · intro n
    show (if m = n then (e.seen .acquire).readerState + 1#32 - (e.seen .acquire).readerState else 0#32) +
      ((if m = n then (e.seen .release).readerState - 1#32 - (e.seen .release).readerState else 0#32) + 0#32) = 0#32
    by_cases hn : m = n
    · rw [if_pos hn, if_pos hn]
      bv_omega
    · rw [if_neg hn, if_neg hn]
      rfl
  · intro t ht
    rcases List.mem_cons.1 ht with rfl | ht
    · exact modest_acquired
    · rw [List.mem_singleton.1 ht]
      exact modest_released

theorem contribution_acquired : contribution m [acquired e m] = 1#32 := by
  show (if m = m then (e.seen .acquire).readerState + 1#32 - (e.seen .acquire).readerState else 0#32) + 0#32 = 1#32
  rw [if_pos rfl]
  bv_omega

theorem not_balanced_acquired : ¬ Balanced [acquired e m] := fun h => by
  have hz := h.readers m
  rw [contribution_acquired] at hz
  exact absurd hz (by decide)

/-! ### The import -/

theorem ImportOutcome.touches_eq (ho : ImportOutcome e w d w' q) : w'.touches = w.touches := by
  rcases ho with ⟨hq, -, -⟩ | ⟨hq, -⟩ | ⟨-, -, -, -, -, ht⟩ | ⟨-, -, -, -, -, -, ht⟩ | ⟨-, -, -, -, -, -, -, -, -, ht⟩
  · exact hq.touches
  · exact hq.touches
  · exact ht
  · exact ht
  · exact ht

theorem ImportOutcome.cacheKept (ho : ImportOutcome e w d w' q) : CacheKept e w w' (some d) := by
  rcases ho with ⟨hq, -, -⟩ | ⟨hq, -⟩ | ⟨-, -, hc, -⟩ | ⟨-, -, -, hc, -⟩ | ⟨ho, -, -, -, hh, hf, hc, -⟩
  · exact .inl hq.cache
  · exact .inl hq.cache
  · exact .inl hc
  · exact .inl hc
  · refine .inr ⟨_, ⟨?_, hf.size, hh⟩, ho.uncached, hc⟩
    rw [hf.mapping]
    exact Option.some_ne_none _

/-- The regions of the call: none, or one that is cached or destroyed. -/
theorem ImportOutcome.mappings (h : Inv w) (ho : ImportOutcome e w d w' q) (hname : Opens e w d → e.alloc .name = true)
    (h1 : w.mmaps.length ≤ m) (h2 : m < w'.mmaps.length)
    (hfree : ∀ key block, w'.cache key = some block → block.mapping ≠ some m) : w'.unmapped.count m = 1 := by
  rcases ho with ⟨hq, -, -⟩ | ⟨hq, -⟩ | ⟨ho, hno, -⟩ | ⟨-, -, -, -, hm, hu, -⟩ | ⟨-, -, -, -, -, hf, hc, hm, -⟩
  · rw [hq.mmaps] at h2
    omega
  · rw [hq.mmaps] at h2
    omega
  · rw [hname ho] at hno
    cases hno
  · rw [hm, List.length_append, List.length_singleton] at h2
    have hm : m = w.mmaps.length := by omega
    rw [hu, hm, List.count_append, List.count_eq_zero_of_not_mem h.length_not_mem, List.count_singleton_self]
  · rw [hm, List.length_append, List.length_singleton] at h2
    have hm : m = w.mmaps.length := by omega
    refine absurd ?_ (hfree d.key _ (by rw [hc, Function.update_self]))
    rw [hf.mapping, hm]

/-- A region that is lost is neither cached nor destroyed. -/
theorem not_destroyed (h : Inv w) (hc : w'.cache = w.cache) (hm : w'.mmaps = w.mmaps ++ [d.sharedBufferBlockSize])
    (hu : w'.unmapped = w.unmapped) {o : Option Message} : ¬ NoLastingEffect e o w w' := fun hn => by
  have hone := hn.mappings w.mmaps.length (Nat.le_refl _) (by rw [hm]; simp) fun key block hk hbm => by
    rw [hc] at hk
    exact Nat.lt_irrefl _ (h.mapping_lt hk hbm)
  rw [hu, List.count_eq_zero_of_not_mem h.length_not_mem] at hone
  cases hone

theorem ImportOutcome.imports (ho : ImportOutcome e w d w' (.ok block)) :
    Imports e w d ∧ (Opens e w d → e.alloc .name = true) := by
  rcases ho with _ | ⟨-, hhit⟩ | _ | _ | ⟨ho, hname, himp, hnode, hh, -⟩
  · refine ⟨.inl ⟨_, hhit⟩, fun ho => ?_⟩
    have hc := hhit.cached
    rw [ho.uncached] at hc
    cases hc
  · exact ⟨.inr ⟨ho, hname, himp, hnode, hh⟩, fun _ => hname⟩

theorem ImportOutcome.not_imports (ho : ImportOutcome e w d w' (.error x)) : ¬ Imports e w d := by
  rintro (⟨block, hhit⟩ | ⟨hopen, hname, himp, hnode, hh⟩)
  · have hc := hhit.cached
    rcases ho with ⟨-, -, hno⟩ | _ | ⟨ho, -⟩ | ⟨ho, -⟩
    · exact hno block hhit
    · rw [ho.uncached] at hc
      cases hc
    · rw [ho.uncached] at hc
      cases hc
  · rcases ho with ⟨-, hno, -⟩ | _ | ⟨-, hno, -⟩ | ⟨-, -, hno, -⟩
    · exact hno hopen
    · rw [hname] at hno
      cases hno
    · exact hno ⟨himp, hnode, hh⟩

/-! ### The call -/

/-- An import followed by writes that balance. -/
theorem noLastingEffect_of_touches (h : Inv w) (hi : ImportOutcome e w d w₁ q)
    (hname : Opens e w d → e.alloc .name = true) (ht : Touches w₁ w' l) (hl : Balanced l) :
    NoLastingEffect e (some d) w w' := by
  refine ⟨⟨l, ?_, hl⟩, ?_, fun m h1 h2 hfree => ?_⟩
  · rw [ht.touches, hi.touches_eq]
  · rw [CacheKept, ht.cache]
    exact hi.cacheKept
  · rw [ht.mmaps] at h2
    rw [ht.cache] at hfree
    rw [ht.unmapped]
    exact hi.mappings h hname h1 h2 hfree

theorem Outcome.noLastingEffect_iff (h : Inv w) (ho : Outcome e w d w' (.error x)) :
    NoLastingEffect e (some d) w w' ↔ Guarded e w (some d) := by
  cases ho with
  | malformed hd hq =>
    refine ⟨fun _ hd' => absurd hd' hd, fun _ => ⟨⟨[], ?_, balanced_nil⟩, .inl hq.cache, fun m h1 h2 _ => ?_⟩⟩
    · rw [hq.touches, List.append_nil]
    · rw [hq.mmaps] at h2
      omega
  | unimported hd hi =>
    refine ⟨fun hn _ => ⟨fun hopen => ?_, fun himp => absurd himp hi.not_imports⟩, fun hg => ?_⟩
    · rcases hi with ⟨-, hno, -⟩ | _ | ⟨-, -, hc, hm, hu, -⟩ | ⟨-, hname, -⟩
      · exact absurd hopen hno
      · exact absurd hn (not_destroyed h hc hm hu)
      · exact hname
    · exact noLastingEffect_of_touches h hi (hg hd).1 ⟨rfl, rfl, rfl, (List.append_nil _).symm⟩ balanced_nil
  | refused hd hi hadm ht =>
    have hname := hi.imports.2
    exact ⟨fun _ _ => ⟨hname, fun _ ha => absurd ha hadm⟩,
      fun _ => noLastingEffect_of_touches h hi hname ht balanced_nil⟩
  | stale hd hi _ _ hr ht =>
    have hname := hi.imports.2
    exact ⟨fun _ _ => ⟨hname, fun _ _ hu => absurd hu hr⟩,
      fun _ => noLastingEffect_of_touches h hi hname ht balanced_acquired_released⟩
  | lost hd hi _ hadm hr halloc ht =>
    refine ⟨fun hn => ?_, fun hg => ?_⟩
    · obtain ⟨l, hl, hb⟩ := hn.touches
      rw [ht.touches, hi.touches_eq, List.append_cancel_left_eq] at hl
      rw [← hl] at hb
      exact absurd hb not_balanced_acquired
    · obtain ⟨h1, h2⟩ := (hg hd).2 hi.imports.1 hadm hr
      rw [h1, h2] at halloc
      rcases halloc with halloc | halloc <;> cases halloc
  | dropped hd hi _ _ _ h1 h2 _ ht =>
    have hname := hi.imports.2
    exact ⟨fun _ _ => ⟨hname, fun _ _ _ => ⟨h1, h2⟩⟩,
      fun _ => noLastingEffect_of_touches h hi hname ht balanced_acquired_released⟩

/-- A throw leaves nothing behind exactly where no unguarded allocation has failed. -/
theorem fromDescriptor_throws {o : Option Message} (h : Reachable w)
    (hcall : w.fromDescriptorWithEndpoint e o = (w', .error x)) : NoLastingEffect e o w w' ↔ Guarded e w o := by
  cases o with
  | none =>
    cases hcall
    refine ⟨fun _ => trivial, fun _ => ⟨⟨[], (List.append_nil _).symm, balanced_nil⟩, rfl, fun m h1 h2 _ => ?_⟩⟩
    omega
  | some d => exact (fromDescriptor_outcome hcall).noLastingEffect_iff h.inv

end

/-- The answers of `sampleEnv`, with no memory for one allocation. -/
def outOfMemory (a : Alloc) : Env := { sampleEnv with alloc := fun b => b != a }

/-- Without memory for the `SharedBufferImpl` the finished buffer gives its reader back. -/
theorem fromDescriptor_throws_impl :
    NoLastingEffect (outOfMemory .impl) (some sample) {}
      (World.fromDescriptorWithEndpoint {} (outOfMemory .impl) (some sample)).1 := by
  have hthrow : (World.fromDescriptorWithEndpoint {} (outOfMemory .impl) (some sample)).2 = .error .badAlloc := rfl
  refine (fromDescriptor_throws (.start init_default) (Prod.ext rfl hthrow)).2 fun _ =>
    ⟨fun _ => rfl, fun _ _ _ => ⟨rfl, rfl⟩⟩

/-- Without memory for the closure nobody does. -/
theorem reader_lost_closure :
    (World.fromDescriptorWithEndpoint {} (outOfMemory .closure) (some sample)).2 = .error .badAlloc ∧
      ¬ NoLastingEffect (outOfMemory .closure) (some sample) {}
        (World.fromDescriptorWithEndpoint {} (outOfMemory .closure) (some sample)).1 := by
  refine ⟨rfl, fun hn => ?_⟩
  obtain ⟨l, hl, hb⟩ := hn.touches
  have htouch : (World.fromDescriptorWithEndpoint {} (outOfMemory .closure) (some sample)).1.touches =
      [acquired (outOfMemory .closure) 0] := rfl
  rw [htouch] at hl
  change _ = [] ++ l at hl
  rw [List.nil_append] at hl
  rw [← hl] at hb
  exact not_balanced_acquired hb

end MemfdBuffer.Import
