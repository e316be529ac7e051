import MemfdBuffer.Windows.Platform

/-!
# What the Windows functions do to the sections

A call either leaves the references to sections as they were, or adds one handle and one view. A new block is a section
that nobody had; an import opens the section its name stands for.
-/

namespace MemfdBuffer.Windows

open Import (Access CacheKey Checks Failure Message SharedBufferImportedBlock SharedBufferPlatformMapping payloadOffset)
open NamedObjects (Keeps)

/-- A handle and a view of section `k`, in the hands of process `p`. -/
structure Holds (t : Sections) (p k h v : Nat) : Prop where
  ne : h ≠ v
  handle : t.ref h = some (p, k)
  view : t.ref v = some (p, k)

/-- A call has added them. -/
structure Opened (t t' : Sections) (p k h v : Nat) : Prop extends Holds t' p k h v where
  keeps : Keeps t t' [h, v]
  handleNew : t.refs.length ≤ h
  viewNew : t.refs.length ≤ v

/-- The references that a mapping consists of. -/
def held (nativeHandle : Int) (mapping : Option Nat) : List Nat :=
  mapping.toList ++ if 0 ≤ nativeHandle then [nativeHandle.toNat] else []

/-- The mapping is a view of section `k`, with its handle. -/
def Mapping (t : Sections) (p k : Nat) (nativeHandle : Int) (mapping : Option Nat) : Prop :=
  ∃ h v : Nat, nativeHandle = h ∧ mapping = some v ∧ Holds t p k h v

/-- The name in an attempt of `create_platform_mapping`. -/
def attemptName (pid : UInt32) (nonce : UInt64) (blockId : UInt32) (attempt : Nat) : String :=
  mappingName pid (nonce + UInt64.ofNat attempt) blockId

/-- Of the attempts from `attempt` on, `i` is the first that does not come upon another section. -/
structure First (t : Sections) (name : Nat → String) (create : Nat → Option Nat) (attempt left i : Nat) : Prop where
  le : attempt ≤ i
  lt : i < attempt + left
  taken (j : Nat) : attempt ≤ j → j < i → create j = none ∧ t.find (widenAscii (name j)) ≠ none

/-- What the loop in `create_platform_mapping` comes to. -/
inductive Tried (t : Sections) (p : Nat) (size : UInt64) (name : Nat → String) (create : Nat → Option Nat)
    (attempt left : Nat) : Sections → Except Nat (Nat × String) → Prop
  | exhausted {t' : Sections} : Keeps t t' [] → t'.objects = t.objects →
      (∀ i, attempt ≤ i → i < attempt + left → create i = none ∧ t.find (widenAscii (name i)) ≠ none) →
      Tried t p size name create attempt left t' (.error errorAlreadyExists)
  | failed {t' : Sections} {i error : Nat} : First t name create attempt left i → create i = some error →
      Keeps t t' [] → t'.objects = t.objects → Tried t p size name create attempt left t' (.error error)
  | made {t' : Sections} {i handle : Nat} : First t name create attempt left i → create i = none →
      t.find (widenAscii (name i)) = none → Keeps t t' [handle] → t.refs.length ≤ handle →
      t'.ref handle = some (p, t.objects.length) → t'.objects = t.objects ++ [(widenAscii (name i), size)] →
      Tried t p size name create attempt left t' (.ok (handle, name i))

/-- What `create_platform_mapping` comes to. -/
inductive Created (t : Sections) (p : Nat) (size : UInt64) (name : Nat → String) (e : CreateEnv) :
    Sections → Except Exn SharedBufferPlatformMapping → Prop
  /-- All names are in use. -/
  | exhausted {t' : Sections} : Keeps t t' [] →
      (∀ i, i < 8 → e.create i = none ∧ t.find (widenAscii (name i)) ≠ none) →
      Created t p size name e t'
        (.error (.runtimeError ("CreateFileMappingW failed: Windows error " ++ toString errorAlreadyExists)))
  | failed {t' : Sections} {i error : Nat} : First t name e.create 0 8 i → e.create i = some error → Keeps t t' [] →
      Created t p size name e t'
        (.error (.runtimeError ("CreateFileMappingW failed: Windows error " ++ toString error)))
  | unviewed {t' : Sections} {i error : Nat} : First t name e.create 0 8 i → e.create i = none →
      t.find (widenAscii (name i)) = none → e.view = some error → Keeps t t' [] →
      Created t p size name e t' (.error (.runtimeError ("MapViewOfFile failed: Windows error " ++ toString error)))
  | made {t' : Sections} {i h v : Nat} : First t name e.create 0 8 i → e.create i = none →
      t.find (widenAscii (name i)) = none → e.view = none → Opened t t' p t.objects.length h v →
      t'.objects = t.objects ++ [(widenAscii (name i), size)] →
      Created t p size name e t' (.ok { nativeHandle := h, mapping := some v, mappedSize := size, ipcName := name i })

/-- What `import_platform_mapping` comes to. -/
inductive Found (t : Sections) (p : Nat) (ipcName : String) (mappedSize : UInt64) :
    Sections → Except Exn SharedBufferPlatformMapping → Prop
  | threw {t' : Sections} {x : Exn} : Keeps t t' [] → Found t p ipcName mappedSize t' (.error x)
  | opened {t' : Sections} {k h v : Nat} : t.find (widenAscii ipcName) = some k → Opened t t' p k h v →
      Found t p ipcName mappedSize t'
        (.ok { nativeHandle := h, mapping := some v, mappedSize := mappedSize, ipcName := ipcName })

section
variable {t t' t'' : Sections} {p k h v handle : Nat} {pid : UInt32} {size : UInt64} {blockId : UInt32} {nonce : UInt64}
  {ipcName : String}

/-! ### Views -/

theorem refs_new {r : Nat} (h : t.refs.length ≤ r) : t.ref r = none := by
  rw [NamedObjects.ref, Slots.get, List.getElem?_eq_none h]
  rfl

/-- A view of the section behind a new handle, or the handle is closed again. -/
theorem mapView_cases {failure : Option Nat} {r : Except Nat Nat} (hk : Keeps t t' [handle])
    (hh : t'.ref handle = some (p, k)) (hnew : t.refs.length ≤ handle) (hm : mapView t' p handle failure = (t'', r)) :
    (∃ error, r = .error error ∧ failure = some error ∧ Keeps t (t''.close handle) []) ∨
      ∃ v, r = .ok v ∧ failure = none ∧ Opened t t'' p k handle v ∧ t''.objects = t'.objects := by
  unfold mapView at hm
  rw [hh] at hm
  cases failure with
  | some error =>
    cases hm
    exact .inl ⟨_, rfl, rfl, hk.close_new hh hnew⟩
  | none =>
    cases hm
    have hlt := NamedObjects.ref_lt hh
    have hlive : t'.live k = true := NamedObjects.live_iff.2 ⟨_, _, hh⟩
    have hrefer : (t'.refer p k).Wf :=
      hk.wf.refer (hk.wf.bound hh) fun j hj hn => hk.wf.unique hj hlive hn
    refine .inr ⟨_, rfl, rfl, ⟨⟨?_, ?_, ?_⟩, hk.trans (.refer hrefer), hnew, hk.length⟩, rfl⟩
    · exact Nat.ne_of_lt hlt
    · rw [NamedObjects.ref_refer, if_neg (Nat.ne_of_lt hlt), hh]
    · rw [NamedObjects.ref_refer, if_pos rfl]

/-! ### `create_platform_mapping` -/

/-- The attempt leads to the section of another block, which is left at once. -/
theorem taken_keeps (hw : t.Wf) {a : String} (hf : t.find a = some k) :
    Keeps t ((t.refer p k).close t.refs.length) [] :=
  (Keeps.refer (hw.refer_find hf)).close_new (by rw [NamedObjects.ref_refer, if_pos rfl]) (Nat.le_refl _)

theorem createLoop_cases {create : Nat → Option Nat} {left attempt : Nat} {r : Except Nat (Nat × String)} (hw : t.Wf)
    (hl : createLoop p pid size blockId nonce create left attempt t = (t', r)) :
    Tried t p size (attemptName pid nonce blockId) create attempt left t' r := by
  induction left generalizing attempt t with
  | zero =>
    cases hl
    exact .exhausted (.refl hw) rfl fun i h h' => absurd h' (Nat.not_lt.2 h)
  | succ left ih =>
    rw [createLoop] at hl
    dsimp only at hl
    rw [← attemptName] at hl
    have hnow : First t (attemptName pid nonce blockId) create attempt (left + 1) attempt :=
      ⟨Nat.le_refl _, by omega, fun j h h' => absurd h' (Nat.not_lt.2 h)⟩
    cases hc : create attempt with
    | some error =>
      rw [hc] at hl
      cases hl
      exact .failed hnow hc (.refl hw) rfl
    | none =>
      rw [hc] at hl
      dsimp only at hl
      cases hf : t.find (widenAscii (attemptName pid nonce blockId attempt)) with
      | none =>
        rw [NamedObjects.create_new hf] at hl
        cases hl
        exact .made hnow hc hf (hw.keeps_new hf) (Nat.le_refl _) (by rw [NamedObjects.ref_refer]; exact if_pos rfl) rfl
      | some k =>
        rw [NamedObjects.create_existing hf] at hl
        have hk := taken_keeps (p := p) hw hf
        have hfind : ∀ a, ((t.refer p k).close t.refs.length).find a = t.find a := fun a => hk.find_eq rfl
        have hlater : ∀ i, First ((t.refer p k).close t.refs.length) (attemptName pid nonce blockId)
            create (attempt + 1) left i →
            First t (attemptName pid nonce blockId) create attempt (left + 1) i := fun i hi => by
          refine ⟨by have := hi.le; omega, by have := hi.lt; omega, fun j hj hlt => ?_⟩
          rcases Nat.eq_or_lt_of_le hj with rfl | hj
          · exact ⟨hc, by rw [hf]; exact Option.some_ne_none _⟩
          · rw [← hfind]
            exact hi.taken j hj hlt
        cases ih hk.wf hl with
        | exhausted hk' hobj hall =>
          refine .exhausted (hk.trans hk') hobj fun i hi hlt => ?_
          rcases Nat.eq_or_lt_of_le hi with rfl | hi
          · exact ⟨hc, by rw [hf]; exact Option.some_ne_none _⟩
          · rw [← hfind]
            exact hall i hi (by omega)
        | failed hi herr hk' hobj => exact .failed (hlater _ hi) herr (hk.trans hk') hobj
        | made hi hnone hfree hk' hnew hh hobj =>
          exact .made (hlater _ hi) hnone (by rw [← hfind]; exact hfree) (hk.trans hk')
            (Nat.le_trans hk.length hnew) hh hobj

theorem createPlatformMapping_cases {e : CreateEnv} {r : Except Exn SharedBufferPlatformMapping} (hw : t.Wf)
    (h : createPlatformMapping t p pid size blockId nonce e = (t', r)) :
    Created t p size (attemptName pid nonce blockId) e t' r := by
  unfold createPlatformMapping at h
  generalize hl : createLoop p pid size blockId nonce e.create 8 0 t = q at h
  obtain ⟨t₁, r₁⟩ := q
  cases createLoop_cases hw hl with
  | exhausted hk hobj hall =>
    cases h
    exact .exhausted hk fun i hi => hall i (Nat.zero_le _) (by omega)
  | failed hi herr hk hobj =>
    cases h
    exact .failed hi herr hk
  | made hi hnone hfree hk hnew hh hobj =>
    dsimp only at h
    generalize hm : mapView t₁ p _ e.view = q at h
    obtain ⟨t₂, r₂⟩ := q
    rcases mapView_cases hk hh hnew hm with ⟨error, rfl, hview, hk'⟩ | ⟨v, rfl, hview, ho, hobj'⟩
    · cases h
      exact .unviewed hi hnone hfree hview hk'
    · cases h
      exact .made hi hnone hfree hview ho (hobj'.trans hobj)

/-! ### `import_platform_mapping`, `destroy_platform_mapping` -/

theorem importPlatformMapping_cases {e : ImportEnv} {r : Except Exn SharedBufferPlatformMapping} (hw : t.Wf)
    (h : importPlatformMapping t p ipcName size e = (t', r)) : Found t p ipcName size t' r := by
  unfold importPlatformMapping at h
  cases ho : e.openError with
  | some error =>
    rw [ho] at h
    cases h
    exact .threw (.refl hw)
  | none =>
    rw [ho] at h
    cases hf : t.find (widenAscii ipcName) with
    | none =>
      rw [hf] at h
      cases h
      exact .threw (.refl hw)
    | some k =>
      rw [hf] at h
      dsimp only at h
      have hself : (t.refer p k).ref t.refs.length = some (p, k) := by rw [NamedObjects.ref_refer, if_pos rfl]
      generalize hm : mapView (t.refer p k) p t.refs.length e.view = q at h
      obtain ⟨t₂, r₂⟩ := q
      rcases mapView_cases (.refer (hw.refer_find hf)) hself (Nat.le_refl _) hm with
        ⟨error, rfl, -, hk⟩ | ⟨v, rfl, -, ho, -⟩
      · cases h
        exact .threw hk
      · cases h
        exact .opened hf ho

theorem held_eq : held (h : Int) (some v) = [v, h] := by
  rw [held, if_pos (Int.natCast_nonneg h)]
  rfl

theorem destroyPlatformMapping_eq :
    destroyPlatformMapping t (h : Int) (some v) = (t.close v).close h := by
  rw [destroyPlatformMapping, if_pos (Int.natCast_nonneg h)]
  rfl

/-- A destroyed mapping gives both its references back. -/
theorem Holds.destroy (hw : t.Wf) (hh : Holds t p k h v) :
    Keeps t (destroyPlatformMapping t (h : Int) (some v)) [v, h] ∧
      ∀ r ∈ [v, h], (destroyPlatformMapping t (h : Int) (some v)).ref r = none := by
  rw [destroyPlatformMapping_eq]
  have hv := Keeps.close hw hh.view
  have hhandle : (t.close v).ref h = some (p, k) := by rw [NamedObjects.ref_close hh.view, if_neg hh.ne, hh.handle]
  refine ⟨hv.trans (.close hv.wf hhandle), fun r hr => ?_⟩
  rw [NamedObjects.ref_close hhandle, NamedObjects.ref_close hh.view]
  rcases List.mem_cons.1 hr with rfl | hr
  · rw [if_pos rfl, ite_self]
  · rw [if_pos (List.mem_singleton.1 hr)]

/-- What has just been opened leaves no trace among the references. -/
theorem Opened.destroy (ho : Opened t t' p k h v) : Keeps t (destroyPlatformMapping t' (h : Int) (some v)) [] := by
  obtain ⟨hk, hnone⟩ := ho.toHolds.destroy ho.keeps.wf
  have hv : (destroyPlatformMapping t' (h : Int) (some v)).ref v = t.ref v := by
    rw [hnone v (by simp), refs_new ho.viewNew]
  have hh : (destroyPlatformMapping t' (h : Int) (some v)).ref h = t.ref h := by
    rw [hnone h (by simp), refs_new ho.handleNew]
  have hkeeps : Keeps t (destroyPlatformMapping t' (h : Int) (some v)) [h, v] := (ho.keeps.trans hk).mono (by simp)
  exact (hkeeps.restore hh).restore hv

/-! ### `import_block` -/

variable {cache cache' : Cache} {d : Message} {e : ImportEnv} {block : SharedBufferImportedBlock}
  {r : Except Failure SharedBufferImportedBlock}

/-- The header that `validate_mapping` finds through a mapping. -/
def header (t : Sections) (mapping : Option Nat) (e : ImportEnv) : Access → SharedBufferControlHeader :=
  (sectionOf t mapping).elim (fun _ => {}) e.seen

theorem validate_ok : validate t block d e = .ok () ↔
    block.mapping ≠ none ∧ block.mappedSize = d.sharedBufferBlockSize ∧ Checks { seen := header t block.mapping e } d :=
  Import.validateMapping_iff Prod.mk.eta.symm

theorem sectionOf_eq (hv : t.ref v = some (p, k)) : sectionOf t (some v) = some k := by
  rw [sectionOf, Option.bind_some, hv]
  rfl

/-- What `import_block` comes to. -/
inductive ImportOutcome (t : Sections) (cache : Cache) (p : Nat) (d : Message) (e : ImportEnv) :
    Sections → Cache → Except Failure SharedBufferImportedBlock → Prop
  | threw {t' : Sections} {x : Failure} : Keeps t t' [] →
      ImportOutcome t cache p d e t' cache (.error x)
  | found {block : SharedBufferImportedBlock} : cache.lookup d.key = some block → validate t block d e = .ok () →
      ImportOutcome t cache p d e t cache (.ok block)
  | opened {t' : Sections} {k h v : Nat} {block : SharedBufferImportedBlock} : cache.lookup d.key = none →
      t.find (widenAscii d.sharedBufferSocketPath) = some k → Opened t t' p k h v →
      block.nativeHandle = h → block.mapping = some v → validate t' block d e = .ok () →
      ImportOutcome t cache p d e t' ((d.key, block) :: cache) (.ok block)

theorem importUncached_cases (hw : t.Wf) (hc : cache.lookup d.key = none)
    (h : importUncached t cache p d e = (t', cache', r)) : ImportOutcome t cache p d e t' cache' r := by
  unfold importUncached at h
  generalize hm : importPlatformMapping t p d.sharedBufferSocketPath d.sharedBufferBlockSize e = q at h
  obtain ⟨t₁, r₁⟩ := q
  cases importPlatformMapping_cases hw hm with
  | threw hk =>
    cases h
    exact .threw hk
  | opened hf ho =>
    have hgone := ho.destroy
    dsimp only at h
    split at h
    · cases h
      exact .threw hgone
    · split at h
      · cases h
        exact .threw hgone
      · rename_i hval
        split at h
        · cases h
          exact .threw hgone
        · cases h
          exact .opened hc hf ho rfl rfl hval

theorem importBlock_cases (hw : t.Wf) (h : importBlock t cache p d e = (t', cache', r)) :
    ImportOutcome t cache p d e t' cache' r := by
  unfold importBlock at h
  split at h
  · cases h
    exact .threw (.refl hw)
  · split at h
    · rename_i existing hc
      split at h
      · cases h
        exact .threw (.refl hw)
      · rename_i hval
        cases h
        exact .found hc hval
    · exact importUncached_cases hw ‹_› h

/-- A block that is not cached is imported as with an empty cache. -/
theorem importBlock_uncached (hc : cache.lookup d.key = none) (h : importBlock t [] p d e = (t', cache', r)) :
    importBlock t cache p d e = (t', cache' ++ cache, r) := by
  unfold importBlock at h ⊢
  split at h
  · rename_i hmeta
    cases h
    rw [if_pos hmeta]
    rfl
  · rename_i hmeta
    rw [if_neg hmeta, hc]
    dsimp only [List.lookup_nil] at h ⊢
    unfold importUncached at h ⊢
    generalize importPlatformMapping t p d.sharedBufferSocketPath d.sharedBufferBlockSize e = q at h ⊢
    obtain ⟨t₁, r₁⟩ := q
    cases r₁ with
    | error x =>
      cases h
      rfl
    | ok mapping =>
      dsimp only at h ⊢
      split at h
      · rename_i himp
        cases h
        rw [if_pos himp]
        rfl
      · rename_i himp
        rw [if_neg himp]
        split at h
        · cases h
          rfl
        · split at h
          · rename_i hnode
            cases h
            rw [if_pos hnode]
            rfl
          · rename_i hnode
            cases h
            rw [if_neg hnode]
            rfl

end

end MemfdBuffer.Windows
