import MemfdBuffer.Python.Programs
import MemfdBuffer.Proc.Arrays

/-!
# Programs on byte arrays

In the reference an object is an array of bytes, unknown until they are stored, a read access shows bytes that are
fixed when it is made, and a write scope is on its object. Every program that does not store to an object while it is
read runs as on the reference, whatever blocks its objects get and wherever they have been before.
-/

namespace MemfdBuffer.Python

open Proc Partial

/-! ### The reference -/

structure Values where
  /-- The bytes of the objects, so far as they are known. -/
  objects : Nat → Option (List (Option UInt8)) := fun _ => none
  /-- What the read accesses show. -/
  reads : Nat → Option (List UInt8) := fun _ => none
  /-- What the write scopes are on. -/
  scopes : Nat → Option Nat := fun _ => none

namespace Values

def put (v : Values) (o : Nat) (l : List (Option UInt8)) : Values :=
  { v with objects := Function.update v.objects o (some l) }

def hold (v : Values) (k : Nat) (l : List UInt8) : Values := { v with reads := Function.update v.reads k (some l) }

def opened (v : Values) (k o : Nat) : Values := { v with scopes := Function.update v.scopes k (some o) }

/-- What a call may answer on values, and the values after it. -/
def Next (v : Values) : Call × Except Raised Value → Values → Prop
  | (.load k offset, .ok (.byte x)), v' => ∃ bytes, v.reads k = some bytes ∧ bytes[offset]? = some x ∧ v' = v
  | (.load k offset, .error _), v' => ∃ bytes, v.reads k = some bytes ∧ bytes.length ≤ offset ∧ v' = v
  | (.load _ _, .ok _), _ => False
  | (.store k _ offset byte, .ok _), v' => ∃ o l, v.scopes k = some o ∧ v.objects o = some l ∧ offset < l.length ∧
      v' = v.put o (l.set offset (some byte))
  | (.store k _ offset _, .error _), v' => ∃ o l, v.scopes k = some o ∧ v.objects o = some l ∧
    l.length ≤ offset ∧ v' = v
  | (.allocateBuffer byteCount _ _, .ok (.buffer o)), v' =>
    v.objects o = none ∧ v' = v.put o (List.replicate byteCount none)
  | (.otherBuffer bytes, .ok (.buffer o)), v' => v.objects o = none ∧ v' = v.put o (bytes.map some)
  | (.readBuffer o _, .ok (.read k)), v' => ∃ l bytes, v.objects o = some l ∧ Agrees l bytes ∧ v.reads k = none ∧
      v' = v.hold k bytes
  | (.writeBuffer o _, .ok (.scope k)), v' => v.scopes k = none ∧ v' = v.opened k o
  | (.allocateBuffer _ _ _, .ok _), _ | (.otherBuffer _, .ok _), _ | (.readBuffer _ _, .ok _), _
  | (.writeBuffer _ _, .ok _), _ => False
  | _, v' => v' = v

variable {v : Values} {o p k l : Nat} {x : List (Option UInt8)} {bytes : List UInt8}

theorem objects_put : (v.put o x).objects p = if p = o then some x else v.objects p :=
  Function.update_apply v.objects o (some x) p

theorem reads_hold : (v.hold k bytes).reads l = if l = k then some bytes else v.reads l :=
  Function.update_apply v.reads k (some bytes) l

theorem scopes_opened : (v.opened k o).scopes l = if l = k then some o else v.scopes l :=
  Function.update_apply v.scopes k (some o) l

end Values

/-- A store to an object that a read access is on. -/
def System.Astray (s : System) : Call → Prop
  | .store k _ _ _ => ∃ o l, s.Writing k o ∧ s.Reading l o
  | _ => False

/-- The calls of a program that makes no such store. -/
def made (s : System) (x : Call × Except Raised Value) (s' : System) : Prop :=
  ¬ s.Astray x.1 ∧ s.exec x.1 = some (s', x.2)

/-! ### The relation -/

/-- The values `v` by way of the arrays `d` of the process. -/
structure Through (s : System) (d : Arrays) (v : Values) : Prop where
  world : Proc.Shows s.world d
  shared {o i : Nat} {x : BufferObject} : s.buffer o = some x → x.content = .shared i →
    ∃ l, v.objects o = some l ∧ d.bufs i = some (1, l)
  other {o : Nat} {x : BufferObject} {bytes : List UInt8} : s.buffer o = some x → x.content = .other bytes →
    v.objects o = some (bytes.map some)
  read {k : Nat} {a : NativeReadAccess} : s.access k = some a →
    ∃ l, v.reads k = some l ∧ d.reads a.handle = some l ∧ l.length = a.byteCount
  scope {k : Nat} {c : WriteScope} : s.scope k = some c → c.py.native.closed = false →
    v.scopes k = c.py.native.owner
  freshBuffer {o : Nat} : s.buffers.length ≤ o → v.objects o = none
  freshRead {k : Nat} : s.reads.length ≤ k → v.reads k = none
  freshScope {k : Nat} : s.scopes.length ≤ k → v.scopes k = none

def Shows (s : System) (v : Values) : Prop := ∃ d, Through s d v

variable {s s' : System} {d d' : Arrays} {v v' : Values} {op : Call} {o i k l n b : Nat} {res : Except Raised Value}
  {x : BufferObject} {a : NativeReadAccess} {c : WriteScope} {w' : World} {out : Out}

/-- Objects, accesses and scopes that are left are what they were. -/
theorem Through.keep (h : Through s d v) (hw : Proc.Shows s'.world d')
    (hb : ∀ o y, s'.buffer o = some y → ∃ x, s.buffer o = some x ∧ y.content = x.content ∧
      ∀ i, x.content = .shared i → d'.bufs i = d.bufs i)
    (hr : ∀ k y, s'.access k = some y → ∃ x, s.access k = some x ∧ y.handle = x.handle ∧ y.byteCount = x.byteCount ∧
      d'.reads x.handle = d.reads x.handle)
    (hc : ∀ k y, s'.scope k = some y → y.py.native.closed = false →
      ∃ x, s.scope k = some x ∧ x.py.native.closed = false ∧ y.py.native.owner = x.py.native.owner)
    (hlb : s.buffers.length ≤ s'.buffers.length) (hlr : s.reads.length ≤ s'.reads.length)
    (hlc : s.scopes.length ≤ s'.scopes.length) : Through s' d' v := by
  refine ⟨hw, fun {o i y} hy hi => ?_, fun {o y bytes} hy hbytes => ?_, fun {k y} hy => ?_, fun {k y} hy hopen => ?_,
    fun ho => h.freshBuffer (hlb.trans ho), fun hk => h.freshRead (hlr.trans hk), fun hk => h.freshScope (hlc.trans hk)⟩
  · obtain ⟨x, hx, hcontent, hd⟩ := hb o y hy
    obtain ⟨l, hl, hbuf⟩ := h.shared hx (hcontent.symm.trans hi)
    exact ⟨l, hl, (hd i (hcontent.symm.trans hi)).trans hbuf⟩
  · obtain ⟨x, hx, hcontent, -⟩ := hb o y hy
    exact h.other hx (hcontent.symm.trans hbytes)
  · obtain ⟨x, hx, hhandle, hcount, hd⟩ := hr k y hy
    obtain ⟨l, hl, hread, hlen⟩ := h.read hx
    exact ⟨l, hl, by rw [hhandle, hd]; exact hread, hlen.trans hcount.symm⟩
  · obtain ⟨x, hx, hopen', howner⟩ := hc k y hy hopen
    exact (h.scope hx hopen').trans howner.symm

/-- The process has changed, but no array and nothing that is read. -/
theorem Through.world_keep (h : Through s d v) (hw : Proc.Shows w' d') (hb : ∀ o i, s.Backs o i → d'.bufs i = d.bufs i)
    (hr : ∀ k a, s.access k = some a → d'.reads a.handle = d.reads a.handle) : Through { s with world := w' } d' v :=
  h.keep hw (fun o y hy => ⟨y, hy, rfl, fun i hi => hb o i ⟨y, hy, hi⟩⟩) (fun k y hy => ⟨y, hy, rfl, rfl, hr k y hy⟩)
    (fun _ y hy hopen => ⟨y, hy, hopen, rfl⟩) le_rfl le_rfl le_rfl

/-! ### What is destroyed -/

theorem Through.collect (h : Through s d v) (hi : Core s) (he : s.collect o = some s') : ∃ d', Through s' d' v := by
  unfold System.collect at he
  cases hb : s.buffer o with
  | none =>
    rw [hb] at he
    cases he
    exact ⟨d, h⟩
  | some x =>
    rw [hb] at he
    dsimp only at he
    split at he
    · have hbuf : ∀ p, (s.setBuffer o none).buffer p = if p = o then none else s.buffer p :=
        fun p => System.buffer_setBuffer hb
      have hlen : s.buffers.length ≤ (s.setBuffer o none).buffers.length := by
        unfold System.setBuffer
        rw [List.length_set]
      have hleft : ∀ {d' : Arrays}, (∀ p i, p ≠ o → s.Backs p i → d'.bufs i = d.bufs i) → ∀ p y,
          (s.setBuffer o none).buffer p = some y → ∃ x, s.buffer p = some x ∧ y.content = x.content ∧
            ∀ i, x.content = .shared i → d'.bufs i = d.bufs i := by
        intro d' hd p y hy
        rw [hbuf] at hy
        split at hy
        · cases hy
        · rename_i hp
          exact ⟨y, hy, rfl, fun i hi => hd p i hp ⟨y, hy, hi⟩⟩
      cases hc : x.content with
      | shared i =>
        rw [hc] at he
        obtain ⟨⟨s₁, out⟩, hcall, rfl⟩ := Option.map_eq_some_iff.1 he
        obtain ⟨w', hexec, rfl⟩ := System.call_eq hcall
        have hexec : Proc.exec s.world (.destroyBuf i) = some (w', out) := hexec
        obtain ⟨-, -, hexec'⟩ := Option.bind_eq_some_iff.1 hexec
        cases hexec'
        obtain ⟨d', rfl, hw⟩ := h.world.call hi.inv rfl hexec
        refine ⟨_, h.keep hw (hleft fun p j hp hj => ?_) (fun k y hy => ⟨y, hy, rfl, rfl, rfl⟩)
          (fun _ y hy hopen => ⟨y, hy, hopen, rfl⟩) hlen le_rfl le_rfl⟩
        rw [Proc.Arrays.bufs_put, if_neg]
        rintro rfl
        exact hp (hi.buffers.unique hj ⟨x, hb, hc⟩)
      | other bytes =>
        rw [hc] at he
        cases he
        exact ⟨d, h.keep h.world (hleft fun _ _ _ _ => rfl) (fun k y hy => ⟨y, hy, rfl, rfl, rfl⟩)
          (fun _ y hy hopen => ⟨y, hy, hopen, rfl⟩) hlen le_rfl le_rfl⟩
    · cases he
      exact ⟨d, h⟩

theorem Through.destroyAccess (h : Through s d v) (hi : Inv s) (hk : s.access k = some a)
    (he : s.destroyAccess k a = some s') : ∃ d', Through s' d' v := by
  obtain ⟨⟨s₁, out⟩, hcall, he⟩ := Option.bind_eq_some_iff.1 he
  obtain ⟨w', hexec, rfl⟩ := System.call_eq hcall
  obtain ⟨-, -, hexec'⟩ := Option.bind_eq_some_iff.1 hexec
  cases hexec'
  obtain ⟨d', rfl, hw⟩ := h.world.call hi.inv rfl hexec
  have hacc : ∀ l, (({ s with world := s.world.destroyRead a.handle } : System).setAccess k none).access l =
      if l = k then none else s.access l := fun l => System.access_setAccess hk
  have hmid : Through (({ s with world := s.world.destroyRead a.handle } : System).setAccess k none)
      (d.hold a.handle none) v := by
    refine h.keep hw (fun o y hy => ⟨y, hy, rfl, fun _ _ => rfl⟩) (fun l y hy => ?_)
      (fun _ y hy hopen => ⟨y, hy, hopen, rfl⟩) le_rfl ?_ le_rfl
    · rw [hacc] at hy
      split at hy
      · cases hy
      · rename_i hl
        refine ⟨y, hy, rfl, rfl, ?_⟩
        rw [Proc.Arrays.reads_hold, if_neg fun heq => hl (hi.reads.unique hy hk heq)]
    · unfold System.setAccess
      rw [List.length_set]
  exact hmid.collect (hi.withoutRead hk hexec) he

theorem Through.endScope (h : Through s d v) (hi : Inv s) (hk : s.scope k = some c) (hopen : c.py.native.closed = false)
    {y : Option WriteScope} (hy : ∀ c', y = some c' → c'.Sound ∧ c'.py.native.closed = true)
    (he : s.endScope k c.handle c.py.native.owner y = some s') : ∃ d', Through s' d' v := by
  obtain ⟨p, i, n, b, hat⟩ := hi.writes.at_ hk hopen
  obtain ⟨⟨s₁, out⟩, hcall, he⟩ := Option.bind_eq_some_iff.1 he
  obtain ⟨w', hexec, rfl⟩ := System.call_eq hcall
  obtain ⟨-, -, hexec'⟩ := Option.bind_eq_some_iff.1 hexec
  cases hexec'
  obtain ⟨d', rfl, hw⟩ := h.world.call hi.inv rfl hexec
  have hscope : ∀ l, (({ s with world := s.world.destroyWrite c.handle } : System).setScope k y).scope l =
      if l = k then y else s.scope l := fun l => System.scope_setScope hk
  have hmid : Through (({ s with world := s.world.destroyWrite c.handle } : System).setScope k y) d' v := by
    refine h.keep hw (fun o z hz => ⟨z, hz, rfl, fun _ _ => rfl⟩) (fun l z hz => ⟨z, hz, rfl, rfl, rfl⟩)
      (fun l z hz hopen' => ?_) le_rfl le_rfl ?_
    · rw [hscope] at hz
      split at hz
      · rw [(hy z hz).2] at hopen'
        cases hopen'
      · exact ⟨z, hz, hopen', rfl⟩
    · unfold System.setScope
      rw [List.length_set]
  rw [hat.owner] at he
  exact hmid.collect (hi.withoutWrite hk hopen hy hexec) he

/-! ### What is made -/

theorem Through.length (h : Through s d v) (hb : s.buffer o = some x) (hn : s.size x = some n) :
    ∃ l, v.objects o = some l ∧ l.length = n := by
  unfold System.size at hn
  cases hc : x.content with
  | shared i =>
    rw [hc] at hn
    obtain ⟨l, hl, hbuf⟩ := h.shared hb hc
    obtain ⟨t, bytes, ht, helem, hhas, hagrees⟩ := h.world.buf hbuf
    obtain ⟨t', ht', rfl⟩ := Option.map_eq_some_iff.1 hn
    cases ht.symm.trans ht'
    have hlen := hhas.length
    rw [helem, Nat.mul_one] at hlen
    exact ⟨l, hl, hagrees.length.symm.trans hlen⟩
  | other bytes =>
    rw [hc] at hn
    cases hn
    exact ⟨_, h.other hb hc, List.length_map ..⟩

/-- A new object. -/
theorem Through.newBuffer (h : Through s d v) {y : BufferObject} {l : List (Option UInt8)} (hw : Proc.Shows w' d')
    (hd : ∀ o i, s.Backs o i → d'.bufs i = d.bufs i)
    (hr : ∀ k a, s.access k = some a → d'.reads a.handle = d.reads a.handle)
    (hshared : ∀ i, y.content = .shared i → d'.bufs i = some (1, l))
    (hother : ∀ bytes, y.content = .other bytes → l = bytes.map some) :
    v.objects s.buffers.length = none ∧
      Through { s with world := w', buffers := s.buffers ++ [some y] } d' (v.put s.buffers.length l) := by
  have hbuf : ∀ p, ({ s with world := w', buffers := s.buffers ++ [some y] } : System).buffer p =
      if p = s.buffers.length then some y else s.buffer p := fun p => Slots.get_append
  have hw' := h.world_keep hw hd hr
  refine ⟨h.freshBuffer le_rfl, hw, fun {o i z} hz hi => ?_, fun {o z bytes} hz hbytes => ?_, hw'.read, hw'.scope,
    fun {o} ho => ?_, h.freshRead, h.freshScope⟩
  · rw [hbuf] at hz
    split at hz
    · rename_i ho
      cases hz
      exact ⟨l, Values.objects_put.trans (if_pos ho), hshared i hi⟩
    · rename_i ho
      obtain ⟨m, hm, hbm⟩ := hw'.shared hz hi
      exact ⟨m, Values.objects_put.trans ((if_neg ho).trans hm), hbm⟩
  · rw [hbuf] at hz
    split at hz
    · rename_i ho
      cases hz
      rw [Values.objects_put, if_pos ho, hother bytes hbytes]
    · rename_i ho
      exact Values.objects_put.trans ((if_neg ho).trans (h.other hz hbytes))
  · have ho : s.buffers.length + 1 ≤ o := by simpa using ho
    exact Values.objects_put.trans ((if_neg (by omega)).trans (h.freshBuffer (by omega)))

/-- A new read access on bytes that nobody else reads by its handle. -/
theorem Through.newRead (h : Through s d v) {j : Nat} {bytes : List UInt8} (hw : Proc.Shows w' (d.hold j (some bytes)))
    (hj : d.reads j = none) (hhandle : a.handle = j) (hlen : bytes.length = a.byteCount) :
    v.reads s.reads.length = none ∧ Through { s with world := w', reads := s.reads ++ [some a] } (d.hold j (some bytes))
      (v.hold s.reads.length bytes) := by
  have hacc : ∀ l, ({ s with world := w', reads := s.reads ++ [some a] } : System).access l =
      if l = s.reads.length then some a else s.access l := fun l => Slots.get_append
  refine ⟨h.freshRead le_rfl, hw, h.shared, h.other, fun {k y} hy => ?_, h.scope, h.freshBuffer, fun {k} hk => ?_,
    h.freshScope⟩
  · rw [hacc] at hy
    split at hy
    · rename_i hk
      cases hy
      exact ⟨bytes, Values.reads_hold.trans (if_pos hk), Proc.Arrays.reads_hold.trans (if_pos hhandle), hlen⟩
    · rename_i hk
      obtain ⟨l, hl, hread, hlen⟩ := h.read hy
      refine ⟨l, Values.reads_hold.trans ((if_neg hk).trans hl),
        Proc.Arrays.reads_hold.trans ((if_neg ?_).trans hread), hlen⟩
      intro heq
      rw [heq, hj] at hread
      cases hread
  · have hk : s.reads.length + 1 ≤ k := by simpa using hk
    exact Values.reads_hold.trans ((if_neg (by omega)).trans (h.freshRead (by omega)))

/-! ### The calls -/

/-- `Through` in the process that a call has left. -/
theorem Through.called (h : Through s d v) (hi : Core s) {p : Proc.Op} (hp : p.plain)
    (he : s.call p = some (s', out)) : ∃ w' d', s' = { s with world := w' } ∧ Proc.exec s.world p = some (w', out) ∧
      d.Next (.call p, out) d' ∧ Proc.Shows w' d' := by
  obtain ⟨w', hexec, rfl⟩ := System.call_eq he
  obtain ⟨d', hnext, hw⟩ := h.world.call hi.inv hp hexec
  exact ⟨w', d', rfl, hexec, hnext, hw⟩

theorem Through.allocateBuffer (h : Through s d v) (hi : Inv s) {byteCount : Nat} {env : AllocEnv}
    {taken : Except Raised Unit} (he : s.allocateBuffer byteCount env taken = some (s', res)) :
    ∃ d' v', v.Next (.allocateBuffer byteCount env taken, res) v' ∧ Through s' d' v' := by
  unfold System.allocateBuffer at he
  split at he
  · cases he
    exact ⟨d, v, rfl, h⟩
  split at he
  · cases he
    exact ⟨d, v, rfl, h⟩
  obtain ⟨⟨s₁, out⟩, hcall, he⟩ := Option.bind_eq_some_iff.1 he
  obtain ⟨w', d', rfl, hexec, hnext, hw⟩ := h.called hi.toCore rfl hcall
  cases out with
  | threw y =>
    cases he
    cases hnext
    exact ⟨d, v, rfl, h.world_keep hw (fun _ _ _ => rfl) fun _ _ _ => rfl⟩
  | slot i =>
    obtain ⟨hfresh, rfl⟩ := hnext
    have hold : ∀ o j, s.Backs o j → j ≠ i := by
      rintro o j ⟨z, hz, hj⟩ rfl
      obtain ⟨l, -, hbuf⟩ := h.shared hz hj
      rw [hfresh] at hbuf
      cases hbuf
    cases taken with
    | ok u =>
      cases he
      have hput : ∀ o j, s.Backs o j → (d.put i (some (1, List.replicate (byteCount * 1) none))).bufs j = d.bufs j :=
        fun o j hj => Proc.Arrays.bufs_put.trans (if_neg (hold o j hj))
      obtain ⟨hnew, hthrough⟩ := h.newBuffer (y := { content := .shared i }) (l := List.replicate byteCount none) hw
        hput (fun _ _ _ => rfl) (fun j hj => by
          cases hj
          rw [Proc.Arrays.bufs_put, if_pos rfl, Nat.mul_one]) (fun bytes hbytes => by cases hbytes)
      exact ⟨_, _, ⟨hnew, rfl⟩, hthrough⟩
    | error y =>
      obtain ⟨⟨s₂, out₂⟩, hcall₂, he⟩ := Option.bind_eq_some_iff.1 he
      cases he
      obtain ⟨w₂, hexec₂, rfl⟩ := System.call_eq hcall₂
      obtain ⟨-, -, hexec'⟩ := Option.bind_eq_some_iff.1 hexec₂
      cases hexec'
      obtain ⟨d₂, rfl, hw₂⟩ := hw.call (Proc.Inv.exec hi.inv hexec) rfl hexec₂
      refine ⟨_, v, rfl, h.world_keep hw₂ (fun o j hj => ?_) fun _ _ _ => rfl⟩
      rw [Proc.Arrays.bufs_put, if_neg (hold o j hj), Proc.Arrays.bufs_put, if_neg (hold o j hj)]
  | _ => cases he

/-- A read handle shows the bytes of the object. -/
theorem Through.fromInputBuffer (h : Through s d v) (hi : Core s) (hb : s.buffer o = some x) (hn : s.size x = some n)
    {env : AllocEnv} (he : s.fromInputBuffer x env = some (s', out)) : ∃ w' p, s' = { s with world := w' } ∧
      Proc.exec s.world p = some (w', out) ∧ (∀ y, out = .threw y → Proc.Shows w' d) ∧ ∀ j, out = .slot j → ∃ l bytes,
        v.objects o = some l ∧ Agrees l bytes ∧ bytes.length = n ∧ d.reads j = none ∧
          Proc.Shows w' (d.hold j (some bytes)) := by
  obtain ⟨l, hl, hlen⟩ := h.length hb hn
  unfold System.fromInputBuffer at he
  cases hc : x.content with
  | shared i =>
    rw [hc] at he
    obtain ⟨w', d', rfl, hexec, hnext, hw⟩ := h.called hi rfl he
    refine ⟨w', _, rfl, hexec, fun y hy => ?_, fun j hj => ?_⟩
    · rw [hy] at hnext
      cases hnext
      exact hw
    · rw [hj] at hnext
      obtain ⟨elem, m, bytes, hbuf, hagrees, hfresh, rfl⟩ := hnext
      obtain ⟨l', hl', hbuf'⟩ := h.shared hb hc
      cases hbuf.symm.trans hbuf'
      cases hl.symm.trans hl'
      exact ⟨l, bytes, hl, hagrees, hagrees.length.trans hlen, hfresh, hw⟩
  | other bytes =>
    rw [hc] at he
    obtain ⟨w', d', rfl, hexec, hnext, hw⟩ := h.called hi rfl he
    refine ⟨w', _, rfl, hexec, fun y hy => ?_, fun j hj => ?_⟩
    · rw [hy] at hnext
      cases hnext
      exact hw
    · rw [hj] at hnext
      obtain ⟨hfresh, rfl⟩ := hnext
      cases hl.symm.trans (h.other hb hc)
      rw [List.length_map] at hlen
      refine ⟨_, bytes, hl, ⟨by rw [List.length_map], fun {k y} hk => ?_⟩, hlen, hfresh, hw⟩
      rw [List.getElem?_map, Option.map_eq_some_iff] at hk
      obtain ⟨z, hz, hzy⟩ := hk
      cases hzy
      exact hz

theorem Through.readBuffer (h : Through s d v) (hi : Inv s) {e : AccessEnv} (he : s.readBuffer o e = some (s', res)) :
    ∃ d' v', v.Next (.readBuffer o e, res) v' ∧ Through s' d' v' := by
  unfold System.readBuffer at he
  obtain ⟨x, hb, he⟩ := Option.bind_eq_some_iff.1 he
  obtain ⟨u, -, he⟩ := Option.bind_eq_some_iff.1 he
  obtain ⟨r, hbegin, he⟩ := Option.bind_eq_some_iff.1 he
  obtain ⟨r', hbegin', hsize⟩ := hi.begin_isSome hb e
  cases hbegin.symm.trans hbegin'
  cases r with
  | error y =>
    cases he
    exact ⟨d, v, rfl, h⟩
  | ok n =>
    obtain ⟨⟨s₁, out⟩, hcall, he⟩ := Option.bind_eq_some_iff.1 he
    obtain ⟨w', p, rfl, hexec, hthrew, hslot⟩ := h.fromInputBuffer hi.toCore hb (hsize n rfl) hcall
    cases out with
    | threw y =>
      cases he
      exact ⟨d, v, rfl, h.world_keep (hthrew y rfl) (fun _ _ _ => rfl) fun _ _ _ => rfl⟩
    | slot j =>
      obtain ⟨l, bytes, hl, hagrees, hlen, hfresh, hw⟩ := hslot j rfl
      dsimp only at he
      split at he
      · cases he
        obtain ⟨hnew, hthrough⟩ := h.newRead (a := { owner := o, handle := j, byteCount := n }) hw hfresh rfl hlen
        exact ⟨_, _, ⟨l, bytes, hl, hagrees, hnew, rfl⟩, hthrough⟩
      · obtain ⟨⟨s₂, out₂⟩, hcall₂, he⟩ := Option.bind_eq_some_iff.1 he
        cases he
        obtain ⟨w₂, hexec₂, rfl⟩ := System.call_eq hcall₂
        obtain ⟨-, -, hexec'⟩ := Option.bind_eq_some_iff.1 hexec₂
        cases hexec'
        obtain ⟨d₂, rfl, hw₂⟩ := hw.call (Proc.Inv.exec hi.inv hexec) rfl hexec₂
        refine ⟨_, v, rfl, h.world_keep hw₂ (fun _ _ _ => rfl) fun k a hk => ?_⟩
        have hj : a.handle ≠ j := by
          intro heq
          obtain ⟨m, -, hread, -⟩ := h.read hk
          rw [heq, hfresh] at hread
          cases hread
        rw [Proc.Arrays.reads_hold, if_neg hj, Proc.Arrays.reads_hold, if_neg hj]
    | _ => cases he

theorem Through.writeBuffer (h : Through s d v) (hi : Inv s) {e : AccessEnv} (he : s.writeBuffer o e = some (s', res)) :
    ∃ d' v', v.Next (.writeBuffer o e, res) v' ∧ Through s' d' v' := by
  unfold System.writeBuffer at he
  obtain ⟨x, hb, he⟩ := Option.bind_eq_some_iff.1 he
  obtain ⟨u, -, he⟩ := Option.bind_eq_some_iff.1 he
  obtain ⟨r, -, he⟩ := Option.bind_eq_some_iff.1 he
  cases r with
  | error y =>
    cases he
    exact ⟨d, v, rfl, h⟩
  | ok n =>
    obtain ⟨⟨s₁, out⟩, hcall, he⟩ := Option.bind_eq_some_iff.1 he
    have hwrite : ∃ w' d', s₁ = { s with world := w' } ∧ Proc.Shows w' d' ∧ d'.bufs = d.bufs ∧ d'.reads = d.reads := by
      unfold System.fromOutputBuffer at hcall
      cases hc : x.content with
      | shared i =>
        rw [hc] at hcall
        obtain ⟨w', d', rfl, hexec, hnext, hw⟩ := h.called hi.toCore rfl hcall
        have hd : d' = d := by cases out <;> exact hnext
        exact ⟨w', d', rfl, hw, by rw [hd], by rw [hd]⟩
      | other bytes =>
        rw [hc] at hcall
        dsimp only at hcall
        split at hcall <;> cases hcall <;> exact ⟨_, d, rfl, h.world, rfl, rfl⟩
    obtain ⟨w', d', rfl, hw, hbufs, hreads⟩ := hwrite
    have hmid : Through { s with world := w' } d' v :=
      h.world_keep hw (fun _ _ _ => by rw [hbufs]) fun _ _ _ => by rw [hreads]
    cases out with
    | threw y =>
      cases he
      exact ⟨d', v, rfl, hmid⟩
    | slot l =>
      obtain ⟨handle, hl, he⟩ := Option.bind_eq_some_iff.1 he
      cases he
      refine ⟨d', _, ⟨h.freshScope le_rfl, rfl⟩, hmid.world, hmid.shared, hmid.other, hmid.read,
        fun {k c} hk hopen => ?_,
        hmid.freshBuffer, hmid.freshRead, fun {k} hk => ?_⟩
      · rw [System.scope, Slots.get_append] at hk
        split at hk
        · rename_i hkl
          cases hk
          exact Values.scopes_opened.trans (if_pos hkl)
        · rename_i hkl
          exact Values.scopes_opened.trans ((if_neg hkl).trans (h.scope hk hopen))
      · have hk : s.scopes.length + 1 ≤ k := by simpa using hk
        exact Values.scopes_opened.trans ((if_neg (show ¬ k = s.scopes.length by omega)).trans
          (h.freshScope (by omega)))
    | _ => cases he

/-- The scope is called, or nothing is left of it. -/
theorem Through.rescoped (h : Through s d v) (hk : s.scope k = some c) {y : Option WriteScope}
    (hy : ∀ c', y = some c' → c'.py.native.closed = false →
      c.py.native.closed = false ∧ c'.py.native.owner = c.py.native.owner) : Through (s.setScope k y) d v := by
  have hscope : ∀ l, (s.setScope k y).scope l = if l = k then y else s.scope l := fun l => System.scope_setScope hk
  refine h.keep h.world (fun o z hz => ⟨z, hz, rfl, fun _ _ => rfl⟩) (fun l z hz => ⟨z, hz, rfl, rfl, rfl⟩)
    (fun l z hz hopen => ?_) le_rfl le_rfl (by unfold System.setScope; rw [List.length_set])
  rw [hscope] at hz
  split at hz
  · rename_i hl
    obtain ⟨hopen', howner⟩ := hy z hz hopen
    exact ⟨c, by rw [hl]; exact hk, hopen', howner⟩
  · exact ⟨z, hz, hopen, rfl⟩

theorem Through.scopeCall (h : Through s d v) (hi : Inv s) {p : PyOp} (he : s.scopeCall k p = some (s', res)) :
    ∃ d', Through s' d' v := by
  unfold System.scopeCall at he
  obtain ⟨c, hk, he⟩ := Option.bind_eq_some_iff.1 he
  obtain ⟨u, hg, he⟩ := Option.bind_eq_some_iff.1 he
  obtain ⟨⟨py, r⟩, hexec, he⟩ := Option.bind_eq_some_iff.1 he
  have hsound := hi.writes.sound hk
  rcases Inv.sound_call hsound ((Option.guard_eq_some' _).1 hg) hexec with ⟨hsame, hkeep⟩ | ⟨hopen, hclosed, hsound'⟩
  · have hclosed : py.native.closed = c.py.native.closed := by rw [hsame]
    have howner : py.native.owner = c.py.native.owner := by rw [hsame]
    dsimp only at he
    rw [if_neg (by rw [hclosed]; simp)] at he
    split at he
    · rename_i hlast
      obtain ⟨s₁, hend, he⟩ := Option.bind_eq_some_iff.1 he
      cases he
      exact h.endScope hi hk (hsound.dropped hlast.1).1 (fun c' hc' => by cases hc') hend
    · cases he
      refine ⟨d, h.rescoped hk fun c' hc' hopen => ?_⟩
      cases hc'
      exact ⟨hclosed.symm.trans hopen, howner⟩
  · dsimp only at he
    rw [if_pos ⟨hclosed, hopen⟩] at he
    obtain ⟨s₁, hend, he⟩ := Option.bind_eq_some_iff.1 he
    cases he
    refine h.endScope hi hk hopen (fun c' hc' => ?_) hend
    cases hc'
    exact ⟨hsound', hclosed⟩

theorem Through.dropScope (h : Through s d v) (hi : Inv s) (he : s.dropScope k = some (s', res)) :
    ∃ d', Through s' d' v := by
  unfold System.dropScope at he
  obtain ⟨c, hk, he⟩ := Option.bind_eq_some_iff.1 he
  obtain ⟨u, -, he⟩ := Option.bind_eq_some_iff.1 he
  split at he
  · cases he
    exact ⟨d, h.rescoped hk fun c' hc' => by cases hc'⟩
  rename_i hopen
  rw [Bool.not_eq_true] at hopen
  split at he
  · obtain ⟨s₁, hend, he⟩ := Option.bind_eq_some_iff.1 he
    cases he
    exact h.endScope hi hk hopen (fun c' hc' => by cases hc') hend
  · cases he
    refine ⟨d, h.rescoped hk fun c' hc' _ => ?_⟩
    cases hc'
    exact ⟨hopen, rfl⟩

/-! ### Loads and stores -/

theorem Through.load (h : Through s d v) (hi : Inv s) {offset : Nat} (he : s.exec (.load k offset) = some (s', res)) :
    v.Next (.load k offset, res) v ∧ s' = s := by
  obtain ⟨a, hk, he⟩ := Option.bind_eq_some_iff.1 he
  obtain ⟨bytes, hread, hd, hlen⟩ := h.read hk
  split at he
  · obtain ⟨shown, hshown, he⟩ := Option.bind_eq_some_iff.1 he
    obtain ⟨byte, hbyte, he⟩ := Option.bind_eq_some_iff.1 he
    cases he
    refine ⟨⟨bytes, hread, ?_, rfl⟩, rfl⟩
    obtain ⟨-, r, b, hat⟩ := hi.reads.at_ hk
    obtain ⟨r', hr', hbytes⟩ := h.world.read hd
    cases hat.handle.symm.trans hr'
    rcases hbytes with ⟨hnone, -⟩ | ⟨b', hb', hpay⟩
    · cases hat.dataPtr.symm.trans hnone
    · cases hat.dataPtr.symm.trans hb'
      obtain ⟨-, rfl⟩ := World.shown_take hat.handle hat.dataPtr hpay hshown
      rw [List.take_of_length_le (by omega)] at hbyte
      exact hbyte
  · cases he
    exact ⟨⟨bytes, hread, by omega, rfl⟩, rfl⟩

/-- A store to a buffer whose block no read handle is on. -/
theorem shows_write {w : World} {t : Buf} {wh : WriteHandle} {m offset : Nat} {byte : UInt8} (h : Proc.Shows w d)
    (hi : Proc.Inv w []) (ht : w.buf i = some t) (hptr : t.shared.dataPtr = some b) (hl : w.write m = some wh)
    (hb : wh.dataPtr = some b) (hread : ∀ j r, w.read j = some r → r.dataPtr ≠ some b)
    (he : w.writeByte m offset byte = some w') : ∃ l, d.bufs i = some (t.elem, l) ∧ offset < l.length ∧
      Proc.Shows w' (d.put i (some (t.elem, l.set offset (some byte)))) := by
  obtain ⟨l, bytes, hx, hhas, hagrees⟩ := h.array ht
  have hf := World.writeByte_frame hl he
  obtain ⟨wh', c, block, hl', hc, hblock, hlt, rfl⟩ := World.writeByte_ok he
  cases hl.symm.trans hl'
  cases hb.symm.trans hc
  have hpayload : block.payload = bytes := by
    rcases hhas.bytes with ⟨hno, -⟩ | ⟨c, hc, hpay⟩
    · cases hptr.symm.trans hno
    · cases hptr.symm.trans hc
      unfold World.payload at hpay
      rw [hblock] at hpay
      exact Option.some.inj hpay
  rw [hpayload, hagrees.length] at hlt
  refine ⟨l, hx, hlt, fun {k} hnone => ?_, fun {k y} hy => ?_, fun {j q} hq => ?_⟩
  · rw [Proc.Arrays.bufs_put] at hnone
    split at hnone
    · cases hnone
    · exact h.live hnone
  · rw [Proc.Arrays.bufs_put] at hy
    split at hy
    · rename_i hk
      cases hy
      rw [hk]
      refine ⟨t, bytes.set offset byte, ht, rfl, ⟨by rw [List.length_set]; exact hhas.length, .inr ⟨b, hptr, ?_⟩⟩,
        hagrees.set offset byte⟩
      show ((w.pool.modifyBlock b _).allBlocks[b]?).map _ = _
      rw [Pool.get_modifyBlock, hblock, Option.map_some, if_pos rfl, Option.map_some, hpayload]
    · rename_i hk
      refine (h.buf hy).keep hf id fun t' c' ht' hc' hE => hk ?_
      cases hb.symm.trans hE
      exact hi.slot_unique ht' ht hc' hptr
  · refine (h.read hq).keep hf id fun r c' hr hc' hE => ?_
    cases hb.symm.trans hE
    exact hread j r hr hc'

/-- The block of an object that no access reads has no read handle. -/
theorem Inv.unread (hi : Inv s) {t : Buf} (hback : s.Backs o i) (ht : s.world.buf i = some t)
    (hptr : t.shared.dataPtr = some b) (hno : ∀ l, ¬ s.Reading l o) {j : Nat} {r : ReadHandle}
    (hr : s.world.read j = some r) : r.dataPtr ≠ some b := by
  intro hrb
  obtain ⟨k, a, hk, rfl⟩ := hi.reads.covered hr
  obtain ⟨-, r', b', hat⟩ := hi.reads.at_ hk
  cases hr.symm.trans hat.handle
  cases hrb.symm.trans hat.dataPtr
  rcases hat.held with ⟨m, t', hback', ht', hptr'⟩ | ⟨-, impl, himpl, hptr'⟩
  · have hmi := hi.inv.slot_unique ht ht' hptr hptr'
    rw [← hmi] at hback'
    exact hno k ⟨a, hk, (hi.buffers.unique hback hback').symm⟩
  · -- a promoted buffer has a block of its own
    obtain ⟨block, hb, -⟩ := (hi.inv.buffers (.buf ht)).block hptr
    have hown := hi.inv.owned hb
    have hbuf := Slots.le_total (f := fun t : Buf => points (·.dataPtr) b t.shared) ht
    have hread := Slots.le_total (f := promoted (points (·.dataPtr) b)) hr
    rw [promoted, himpl, Option.elim_some, points_eq_one hptr'] at hread
    rw [points_eq_one hptr] at hbuf
    unfold World.owners World.bufSum at hown
    split at hown <;> simp only [List.count_nil] at hown <;> omega

/-- What a scope is on. -/
theorem Through.onScope (h : Through s d v) (hi : Inv s) (hk : s.scope k = some c) (hopen : c.py.native.closed = false)
    (hat : WriteAt s c o i n b) : ∃ t l, s.world.buf i = some t ∧ t.elem = 1 ∧ t.shared.dataPtr = some b ∧
      v.scopes k = some o ∧ v.objects o = some l ∧ d.bufs i = some (1, l) ∧ l.length = c.py.native.byteCount := by
  obtain ⟨x, hx, hc⟩ := hat.backs
  obtain ⟨l, hl, hbuf⟩ := h.shared hx hc
  obtain ⟨t, bytes, ht, helem, hhas, hagrees⟩ := h.world.buf hbuf
  obtain ⟨t', ht', hptr, -⟩ := hat.buf
  cases ht.symm.trans ht'
  obtain ⟨block, hb, hsize⟩ := hat.size
  refine ⟨t, l, ht, helem, hptr, (h.scope hk hopen).trans hat.owner, hl, hbuf, ?_⟩
  rw [← hagrees.length, ← hsize, ← (hi.inv.pool.stored hb).length]
  rcases hhas.bytes with ⟨hno, -⟩ | ⟨c', hc', hpay⟩
  · cases hptr.symm.trans hno
  · cases hptr.symm.trans hc'
    unfold World.payload at hpay
    rw [hb] at hpay
    have hpay : block.payload = bytes := Option.some.inj hpay
    rw [hpay]

theorem Through.store (h : Through s d v) (hi : Inv s) {u offset : Nat} {byte : UInt8}
    (hno : ¬ s.Astray (.store k u offset byte)) (he : s.exec (.store k u offset byte) = some (s', res)) :
    ∃ d' v', v.Next (.store k u offset byte, res) v' ∧ Through s' d' v' := by
  obtain ⟨c, hk, he⟩ := Option.bind_eq_some_iff.1 he
  obtain ⟨view, hview, he⟩ := Option.bind_eq_some_iff.1 he
  obtain ⟨g, hg, he⟩ := Option.bind_eq_some_iff.1 he
  have hsound := hi.writes.sound hk
  have hopen := Inv.live_open hsound ⟨view, hview, (Option.guard_eq_some' _).1 hg⟩
  have hsized := hsound.sized view (List.mem_of_getElem? hview)
  obtain ⟨o, i, n, b, hat⟩ := hi.writes.at_ hk hopen
  obtain ⟨t, l, ht, helem, hptr, hscope, hobject, hbuf, hlen⟩ := h.onScope hi hk hopen hat
  split at he
  · obtain ⟨⟨s₁, out⟩, hcall, he⟩ := Option.bind_eq_some_iff.1 he
    cases he
    obtain ⟨w', hexec, rfl⟩ := System.call_eq hcall
    obtain ⟨w₁, hwrite, hexec⟩ := Option.bind_eq_some_iff.1 hexec
    cases hexec
    have hfree : ∀ l, ¬ s.Reading l o := fun l hl => hno ⟨o, l, ⟨c, hk, hopen, hat.owner⟩, hl⟩
    obtain ⟨l', hl', hlt, hw⟩ := shows_write h.world hi.inv ht hptr hat.handle hat.dataPtr
      (fun j r hr => hi.unread hat.backs ht hptr hfree hr) hwrite
    rw [helem] at hl' hw
    cases hbuf.symm.trans hl'
    refine ⟨_, _, ⟨o, l, hscope, hobject, hlt, rfl⟩, hw, fun {p j y} hy hj => ?_, fun {p y bytes} hy hbytes => ?_,
      h.read,
      h.scope, fun {p} hp => ?_, h.freshRead, h.freshScope⟩
    · by_cases hpo : p = o
      · rw [hpo] at hy
        cases Inv.backs_unique hat.backs ⟨y, hy, hj⟩
        exact ⟨_, Values.objects_put.trans (if_pos hpo), Proc.Arrays.bufs_put.trans (if_pos rfl)⟩
      · obtain ⟨m, hm, hbm⟩ := h.shared hy hj
        refine ⟨m, Values.objects_put.trans ((if_neg hpo).trans hm), Proc.Arrays.bufs_put.trans ((if_neg ?_).trans hbm)⟩
        rintro rfl
        exact hpo (hi.buffers.unique ⟨y, hy, hj⟩ hat.backs)
    · refine Values.objects_put.trans ((if_neg ?_).trans (h.other hy hbytes))
      rintro rfl
      obtain ⟨z, hz, hzi⟩ := hat.backs
      cases hz.symm.trans hy
      cases hzi.symm.trans hbytes
    · refine Values.objects_put.trans ((if_neg ?_).trans (h.freshBuffer hp))
      rintro rfl
      rw [h.freshBuffer hp] at hobject
      cases hobject
  · cases he
    exact ⟨d, v, ⟨o, l, hscope, hobject, by omega, rfl⟩, h⟩

/-! ### Programs -/

theorem Through.recounted (h : Through s d v) (hb : s.buffer o = some x) (n : Nat) :
    Through (s.setBuffer o (some { x with refs := n })) d v := by
  refine h.keep h.world (fun p y hy => ?_) (fun k y hy => ⟨y, hy, rfl, rfl, rfl⟩)
    (fun _ y hy hopen => ⟨y, hy, hopen, rfl⟩)
    (by unfold System.setBuffer; rw [List.length_set]) le_rfl le_rfl
  rw [System.buffer_setBuffer hb] at hy
  split at hy
  · rename_i hp
    cases hy
    exact ⟨x, by rw [hp]; exact hb, rfl, fun _ _ => rfl⟩
  · exact ⟨y, hy, rfl, fun _ _ => rfl⟩

theorem Through.reviewed (h : Through s d v) (hk : s.access k = some a) (n : Nat) :
    Through (s.setAccess k (some { a with views := n })) d v := by
  refine h.keep h.world (fun o y hy => ⟨y, hy, rfl, fun _ _ => rfl⟩) (fun l y hy => ?_)
    (fun _ y hy hopen => ⟨y, hy, hopen, rfl⟩) le_rfl (by unfold System.setAccess; rw [List.length_set]) le_rfl
  rw [System.access_setAccess hk] at hy
  split at hy
  · rename_i hl
    cases hy
    exact ⟨a, by rw [hl]; exact hk, rfl, rfl, rfl⟩
  · exact ⟨y, hy, rfl, rfl, rfl⟩

theorem Through.exec (h : Through s d v) (hi : Inv s) (hno : ¬ s.Astray op) (he : s.exec op = some (s', res)) :
    ∃ d' v', v.Next (op, res) v' ∧ Through s' d' v' := by
  have hbare : ∀ {p : Proc.Op} {s₁ : System} {out : Out}, p.plain → (∀ d', d.Next (.call p, out) d' → d' = d) →
      s.call p = some (s₁, out) → Through s₁ d v := by
    intro p s₁ out hp hd hcall
    obtain ⟨w', d', rfl, -, hnext, hw⟩ := h.called hi.toCore hp hcall
    rw [hd d' hnext] at hw
    exact h.world_keep hw (fun _ _ _ => rfl) fun _ _ _ => rfl
  cases op with
  | allocateBuffer byteCount env taken => exact h.allocateBuffer hi he
  | otherBuffer bytes =>
    cases he
    obtain ⟨hnew, hthrough⟩ := h.newBuffer (y := { content := .other bytes }) (l := bytes.map some) h.world
      (fun _ _ _ => rfl)
      (fun _ _ _ => rfl) (fun i hi => by cases hi) fun bytes' hbytes => by cases hbytes; rfl
    exact ⟨d, _, ⟨hnew, rfl⟩, hthrough⟩
  | reference o =>
    obtain ⟨x, hb, he⟩ := Option.bind_eq_some_iff.1 he
    obtain ⟨u, -, he⟩ := Option.bind_eq_some_iff.1 he
    cases he
    exact ⟨d, v, rfl, h.recounted hb _⟩
  | unreference o =>
    obtain ⟨x, hb, he⟩ := Option.bind_eq_some_iff.1 he
    obtain ⟨u, -, he⟩ := Option.bind_eq_some_iff.1 he
    obtain ⟨s₁, hcollect, he⟩ := Option.bind_eq_some_iff.1 he
    cases he
    obtain ⟨d', h'⟩ := (h.recounted hb _).collect (Inv.recount hi.toCore hb _) hcollect
    exact ⟨d', v, rfl, h'⟩
  | readBuffer o e => exact h.readBuffer hi he
  | deriveView k =>
    obtain ⟨a, hk, he⟩ := Option.bind_eq_some_iff.1 he
    cases he
    exact ⟨d, v, rfl, h.reviewed hk _⟩
  | releaseView k =>
    obtain ⟨a, hk, he⟩ := Option.bind_eq_some_iff.1 he
    split at he
    · obtain ⟨s₁, hdestroy, he⟩ := Option.bind_eq_some_iff.1 he
      cases he
      obtain ⟨d', h'⟩ := h.destroyAccess hi hk hdestroy
      exact ⟨d', v, rfl, h'⟩
    · cases he
      exact ⟨d, v, rfl, h.reviewed hk _⟩
  | load k offset =>
    obtain ⟨hnext, rfl⟩ := h.load hi he
    exact ⟨d, v, hnext, h⟩
  | writeBuffer o e => exact h.writeBuffer hi he
  | scope k p =>
    obtain ⟨d', h'⟩ := h.scopeCall hi he
    exact ⟨d', v, by cases res <;> rfl, h'⟩
  | dropScope k =>
    obtain ⟨d', h'⟩ := h.dropScope hi he
    exact ⟨d', v, by cases res <;> rfl, h'⟩
  | store k u offset byte => exact h.store hi hno he
  | publish o gid e =>
    obtain ⟨x, hb, he⟩ := Option.bind_eq_some_iff.1 he
    obtain ⟨u, -, he⟩ := Option.bind_eq_some_iff.1 he
    obtain ⟨⟨s₁, out⟩, hcall, he⟩ := Option.bind_eq_some_iff.1 he
    have h₁ := hbare rfl (fun d' hd => by cases out <;> exact hd) hcall
    cases out with
    | descriptor y =>
      cases he
      exact ⟨d, v, rfl, h₁⟩
    | _ => cases he
  | onDiscoveringEndpoint gid supported =>
    simp only [System.exec, Option.bind_eq_bind] at he
    obtain ⟨⟨s₁, out⟩, hcall, he⟩ := Option.bind_eq_some_iff.1 he
    cases he
    exact ⟨d, v, rfl, hbare rfl (fun d' hd => by cases out <;> exact hd) hcall⟩
  | outside act =>
    simp only [System.exec, Option.bind_eq_bind] at he
    obtain ⟨⟨s₁, out⟩, hcall, he⟩ := Option.bind_eq_some_iff.1 he
    cases he
    exact ⟨d, v, rfl, hbare rfl (fun d' hd => by cases out <;> exact hd) hcall⟩

theorem forward : Simulation.Forward made Values.Next fun s v => Inv s ∧ Shows s v := by
  rintro s ⟨op, res⟩ s' v ⟨hi, d, h⟩ ⟨hno, he⟩
  obtain ⟨d', v', hnext, h'⟩ := h.exec hi hno he
  exact ⟨v', hnext, hi.step (show s.step op = some s' by rw [System.step, he, Option.map_some]), d', h'⟩

theorem Init.shows (h : s.Init) : Shows s {} := by
  obtain ⟨hw, hb, hr, hc⟩ := h
  refine ⟨{}, hw.shows, fun {o i x} hx => ?_, fun {o x bytes} hx => ?_, fun {k a} hk => ?_, fun {k c} hk => ?_,
    fun _ => rfl, fun _ => rfl, fun _ => rfl⟩
  · rw [System.buffer, hb] at hx
    cases hx
  · rw [System.buffer, hb] at hx
    cases hx
  · rw [System.access, hr] at hk
    cases hk
  · rw [System.scope, hc] at hk
    cases hk

/-- Objects are values: a program that does not store to an object while it is read is answered all along as on the
reference. What a read access shows are the bytes that the object had when it was made, stored through whatever scopes
before, and stays so. -/
theorem programs_on_values {path : List ((Call × Except Raised Value) × System)} (h0 : s.Init)
    (h : Simulation.Path made s path s') : ∃ path' v, Simulation.Path Values.Next {} path' v ∧ Shows s' v ∧
      List.Forall₂ (fun x y => x.1 = y.1 ∧ Shows x.2 y.2) path path' := by
  obtain ⟨path', v, hpath, ⟨-, hshows⟩, hall⟩ := forward.follow h ⟨Init.inv h0, Init.shows h0⟩
  exact ⟨path', v, hpath, hshows, hall.imp fun _ _ hxy => ⟨hxy.1, hxy.2.2⟩⟩

/-- A byte is stored, the write is closed, and the byte is read after the program has let go of the object. -/
def kept : List (Call × Except Raised Value) :=
  [(.allocateBuffer 4 {} (.ok ()), .ok (.buffer 0)), (.writeBuffer 0 {}, .ok (.scope 0)),
    (.scope 0 (.enter .ok), .ok (.value (.view 0))), (.store 0 0 1 7, .ok .none),
    (.scope 0 .close, .ok (.value .none)), (.readBuffer 0 {}, .ok (.read 0)), (.unreference 0, .ok .none),
    (.load 0 1, .ok (.byte 7))]

/-- The process after `n` of these calls. -/
def keptAt (n : Nat) : System := (Machine.run System.step {} ((kept.take n).map (·.1))).getD {}

theorem made_of (op : Call) (res : Except Raised Value) (hno : ¬ s.Astray op) (he : s.exec op = some (s', res)) :
    made s (op, res) s' := ⟨hno, he⟩

theorem kept_path : ∃ path s', Simulation.Path made {} path s' ∧ path.map (·.1) = kept := by
  have h₁ : Simulation.Path made {} _ (keptAt 1) :=
    Simulation.Path.nil.snoc (made_of (.allocateBuffer 4 {} (.ok ())) (.ok (.buffer 0)) id rfl)
  have h₂ : Simulation.Path made {} _ (keptAt 2) := h₁.snoc (made_of (.writeBuffer 0 {}) (.ok (.scope 0)) id rfl)
  have h₃ : Simulation.Path made {} _ (keptAt 3) :=
    h₂.snoc (made_of (.scope 0 (.enter .ok)) (.ok (.value (.view 0))) id rfl)
  have hunread : ¬ (keptAt 3).Astray (.store 0 0 1 7) := by
    rintro ⟨o, l, -, a, ha, -⟩
    cases ha
  have h₄ : Simulation.Path made {} _ (keptAt 4) := h₃.snoc (made_of (.store 0 0 1 7) (.ok .none) hunread rfl)
  have h₅ : Simulation.Path made {} _ (keptAt 5) := h₄.snoc (made_of (.scope 0 .close) (.ok (.value .none)) id rfl)
  have h₆ : Simulation.Path made {} _ (keptAt 6) := h₅.snoc (made_of (.readBuffer 0 {}) (.ok (.read 0)) id rfl)
  have h₇ : Simulation.Path made {} _ (keptAt 7) := h₆.snoc (made_of (.unreference 0) (.ok .none) id rfl)
  have h₈ : Simulation.Path made {} _ (keptAt 8) := h₇.snoc (made_of (.load 0 1) (.ok (.byte 7)) id rfl)
  exact ⟨_, _, h₈, rfl⟩

theorem programs_on_values_kept : ∃ path s', Simulation.Path made {} path s' ∧ path.map (·.1) = kept ∧
    ∃ path' v, Simulation.Path Values.Next {} path' v ∧ Shows s' v ∧
      List.Forall₂ (fun x y => x.1 = y.1 ∧ Shows x.2 y.2) path path' := by
  obtain ⟨path, s', h, hlabels⟩ := kept_path
  exact ⟨path, s', h, hlabels, programs_on_values init_empty h⟩

end MemfdBuffer.Python
