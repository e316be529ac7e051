import MemfdBuffer.Atomic.Refs

/-!
# What a step does to a block

`Grows`: the identity of a block never changes, its generations only accumulate. `Keeps` adds under
which conditions a step may start a new generation, touch a published payload or change the visible
UID. `Step.keeps` proves it of every step, once; the invariants of the objects that refer to blocks
follow from it without looking at steps again.
-/

namespace MemfdBuffer.Atomic

/-- The identity of a block is fixed, its history grows. -/
structure Grows (blk blk' : PhysBlock) : Prop where
  pool : blk'.pool = blk.pool
  pid : blk'.pid = blk.pid
  blockId : blk'.blockId = blk.blockId
  mappedSize : blk'.mappedSize = blk.mappedSize
  payloadSize : blk'.payloadSize = blk.payloadSize
  describes : ∀ n, blk'.control.describes n = blk.control.describes n
  length : blk'.payload.length = blk.payload.length
  path : blk.socketPath ≠ "" → blk'.socketPath = blk.socketPath
  draws : blk.draws <+: blk'.draws
  gen : blk.gen ≤ blk'.gen
  ready : blk.ready = true → blk'.ready = true

theorem Grows.refl (blk : PhysBlock) : Grows blk blk :=
  ⟨rfl, rfl, rfl, rfl, rfl, fun _ => rfl, rfl, fun _ => rfl, List.prefix_rfl, Nat.le_refl _, id⟩

/-- The claim CAS of `b` has succeeded. -/
def Claims (w w' : World) (b : Nat) : Prop :=
  ∃ p size ts n, w.pools p = .checked size b ts n ∧ w'.pools p = .chosen b false

/-- `Grows`, and when a step may do more than count readers. -/
structure Keeps (w w' : World) (b : Nat) (blk blk' : PhysBlock) : Prop where
  grows : Grows blk blk'
  /-- A new generation only starts with a claim, from a reader word of zero. -/
  gen : blk'.gen = blk.gen ∨ blk.control.readerState = 0#32 ∧ Claims w w' b
  inUse : blk'.inUse = true → blk.inUse = true ∨ Claims w w' b
  /-- Within a generation what is published stays published, with its bytes. -/
  published : blk'.gen = blk.gen → blk.published = true →
    blk'.published = true ∧ blk'.payload = blk.payload
  /-- The visible UID changes to `0` under a claim, or to the UID of the generation. -/
  uid : blk'.control.ipcUid = blk.control.ipcUid ∨ (∃ p fresh, w.pools p = .chosen b fresh) ∨
    blk'.control.ipcUid = blk.currentUid

theorem Keeps.refl (w w' : World) (b : Nat) (blk : PhysBlock) : Keeps w w' b blk blk :=
  ⟨.refl blk, .inl rfl, .inl, fun _ h => ⟨h, rfl⟩, .inl rfl⟩

theorem Grows.control {blk : PhysBlock} {control : SharedBufferControlHeader}
    (hd : ∀ n, control.describes n = blk.control.describes n) : Grows blk (blk.withControl control) :=
  { Grows.refl blk with describes := hd }

/-- A write to the header that leaves the UID alone. -/
theorem Keeps.control {w w' : World} {b : Nat} {blk : PhysBlock} {control : SharedBufferControlHeader}
    (hd : ∀ n, control.describes n = blk.control.describes n)
    (hu : control.ipcUid = blk.control.ipcUid) : Keeps w w' b blk (blk.withControl control) :=
  ⟨.control hd, .inl rfl, .inl, fun _ h => ⟨h, rfl⟩, .inl hu⟩

/-- Every block of `w` is in `w'`, changed as `Keeps` allows. -/
def KeepsAll (w w' : World) : Prop :=
  ∀ b blk, w.blocks[b]? = some blk → ∃ blk', w'.blocks[b]? = some blk' ∧ Keeps w w' b blk blk'

namespace KeepsAll
variable {w w' : World}

theorem of_blocks (h : w'.blocks = w.blocks) : KeepsAll w w' :=
  fun b blk hb => ⟨blk, by rw [h, hb], .refl w w' b blk⟩

theorem set {c : Nat} {x x' : PhysBlock} (hw : w'.blocks = w.blocks.set c x')
    (hx : w.blocks[c]? = some x) (hk : Keeps w w' c x x') : KeepsAll w w' := by
  intro b blk hb
  rw [hw]
  by_cases hbc : c = b
  · subst hbc
    rw [hx] at hb; cases hb
    exact ⟨x', Tally.get_set_self hx, hk⟩
  · exact ⟨blk, by rw [List.getElem?_set_ne hbc, hb], .refl w w' b blk⟩

theorem append {x : PhysBlock} (hw : w'.blocks = w.blocks ++ [x]) : KeepsAll w w' := by
  intro b blk hb
  refine ⟨blk, ?_, .refl w w' b blk⟩
  rw [hw, List.getElem?_append_left (List.getElem?_eq_some_iff.1 hb).1, hb]

end KeepsAll

theorem Step.keeps {w w' : World} {a : Act} (h : Step w a w') : KeepsAll w w' := by
  cases h with
  | @claim p size b published made uid blk hp hb hr =>
    have hc : Claims w ((w.setBlock b ((blk.taken uid).withControl
        { blk.control with readerState := kSharedBufferReuseClaimed })).setPool p (.chosen b false)) b :=
      ⟨p, size, published, made, hp, World.setPool_self⟩
    refine .set rfl hb ⟨?_, .inr ⟨hr, hc⟩, fun _ => .inr hc, fun h => ?_, .inl rfl⟩
    · exact { Grows.refl blk with
        draws := List.prefix_append _ _, gen := Nat.le_succ _, describes := fun _ => rfl }
    · exact absurd h (Nat.succ_ne_self _)
  | create hp hl => exact .append rfl
  | clearUid hp hb =>
    exact .set rfl hb
      ⟨.control fun _ => rfl, .inl rfl, .inl, fun _ h => ⟨h, rfl⟩, .inr (.inl ⟨_, _, hp⟩)⟩
  | clearStamp hp hb => exact .set rfl hb (.control (fun _ => rfl) rfl)
  | @dropClaim _ p b fresh blk hp hb =>
    refine .set rfl hb ⟨?_, .inl rfl, .inl, fun _ h => ⟨h, rfl⟩, .inl rfl⟩
    exact { Grows.refl blk with describes := fun _ => rfl, ready := fun _ => rfl }
  | @publish _ i b s blk ipcName name hs hd hb hl hn hname =>
    refine .set rfl hb ⟨?_, .inl rfl, .inl, fun _ h => ⟨h, rfl⟩, .inl rfl⟩
    exact { Grows.refl blk with path := fun h => by rw [hname, if_neg h] }
  | @write _ i b k v s blk hs hd hb hu =>
    refine .set rfl hb
      ⟨?_, .inl rfl, .inl, fun _ h => absurd (hu ▸ h) Bool.false_ne_true, .inl rfl⟩
    exact { Grows.refl blk with length := List.length_set }
  | acquireImport ht hb hr => exact .set rfl hb (.control (fun _ => rfl) rfl)
  | acquireRead ht hb hr hs => exact .set rfl hb (.control (fun _ => rfl) rfl)
  | acquireHold ht hb hr hs => exact .set rfl hb (.control (fun _ => rfl) rfl)
  | undo ht hb => exact .set rfl hb (.control (fun _ => rfl) rfl)
  | release ht hb => exact .set rfl hb (.control (fun _ => rfl) rfl)
  | @free _ t b es after blk ht hb hp =>
    refine .set rfl hb ⟨{ Grows.refl blk with }, .inl rfl, fun h => ?_, fun _ h => ⟨h, rfl⟩, .inl rfl⟩
    exact absurd h Bool.false_ne_true
  | @storeUid _ t i b s d blk ht hs hc hb =>
    refine .set rfl hb ⟨?_, .inl rfl, .inl, fun _ _ => ⟨rfl, rfl⟩, .inr (.inr rfl)⟩
    exact { Grows.refl blk with describes := fun _ => rfl }
  | @storeStamp t i b now _ s d blk ht hs hc hb =>
    refine .set rfl hb ⟨?_, .inl rfl, .inl, fun _ h => ⟨h, rfl⟩, .inl rfl⟩
    exact { Grows.refl blk with describes := fun _ => rfl }
  | _ => exact .of_blocks rfl

/-- Descriptors are only added. -/
theorem Step.descs {w w' : World} {a : Act} (h : Step w a w') : w.descs <+: w'.descs := by
  cases h with
  | storeStamp ht hs hc hb => exact List.prefix_append _ _
  | _ => exact List.prefix_rfl

end MemfdBuffer.Atomic
