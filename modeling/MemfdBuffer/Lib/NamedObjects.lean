import MemfdBuffer.Lib.Slots
import Mathlib.Data.List.Nodup

/-!
# Named objects

Objects that live as long as somebody holds a reference to them. While an object lives its name stands for it, so
that an attempt to create an object under the name opens the one that is there; once it is gone the name is free.
References are numbered, each has a holder, and all references of a holder can be dropped at once. `closes` records
the single closes.
-/

structure NamedObjects (ν κ α : Type*) where
  /-- Every object ever made, with its name. -/
  objects : List (ν × α) := []
  /-- The holder and the object of every reference ever made; `none` once it is closed. -/
  refs : List (Option (κ × Nat)) := []
  -- history
  closes : List Nat := []

namespace NamedObjects

open Slots

variable {ν κ α : Type*}

section
variable (t : NamedObjects ν κ α)

def ref (r : Nat) : Option (κ × Nat) := get t.refs r

def name (k : Nat) : Option ν := (t.objects[k]?).map Prod.fst

/-- Somebody holds a reference. -/
def live (k : Nat) : Bool := t.refs.any fun o => o.any fun x => x.2 == k

/-- The object that a name stands for. -/
def find [DecidableEq ν] (a : ν) : Option Nat :=
  (List.range t.objects.length).find? fun k => t.live k && decide (t.name k = some a)

/-- One more reference; its number is `t.refs.length`. -/
def refer (holder : κ) (k : Nat) : NamedObjects ν κ α := { t with refs := t.refs ++ [some (holder, k)] }

/-- An object under a name, with a first reference; `true` if the name already stood for one. -/
def create [DecidableEq ν] (holder : κ) (a : ν) (x : α) : NamedObjects ν κ α × Bool :=
  match t.find a with
  | some k => (t.refer holder k, true)
  | none => (({ t with objects := t.objects ++ [(a, x)] } : NamedObjects ν κ α).refer holder t.objects.length, false)

def close (r : Nat) : NamedObjects ν κ α := { t with refs := t.refs.set r none, closes := t.closes ++ [r] }

def closeAll [DecidableEq κ] (holder : κ) : NamedObjects ν κ α :=
  { t with refs := t.refs.map fun o => o.filter fun x => x.1 ≠ holder }

/-- References lead to objects, a name stands for one object at most, and nothing is closed twice. -/
structure Wf : Prop where
  bound {r : Nat} {holder : κ} {k : Nat} : t.ref r = some (holder, k) → k < t.objects.length
  unique {k j : Nat} : t.live k = true → t.live j = true → t.name k = t.name j → k = j
  closes : t.closes.Nodup
  closed {r : Nat} : r ∈ t.closes → r < t.refs.length ∧ t.ref r = none

end

variable {t t' : NamedObjects ν κ α} {r q k j : Nat} {holder h : κ} {a : ν} {x : α}

theorem live_iff : t.live k = true ↔ ∃ r holder, t.ref r = some (holder, k) := by
  unfold live ref
  simp only [List.any_eq_true, Option.any_eq_true, beq_iff_eq]
  constructor
  · rintro ⟨o, hmem, x, rfl, hk⟩
    obtain ⟨r, hr⟩ := List.mem_iff_getElem?.1 hmem
    exact ⟨r, x.1, get_eq_some.2 (by rw [hr, ← hk])⟩
  · rintro ⟨r, holder, hr⟩
    exact ⟨_, List.mem_of_getElem? (get_eq_some.1 hr), _, rfl, rfl⟩

theorem name_lt (h : t.name k = some a) : k < t.objects.length := by
  obtain ⟨x, hx, -⟩ := Option.map_eq_some_iff.1 h
  exact (List.getElem?_eq_some_iff.1 hx).1

theorem ref_lt (h : t.ref r = some (holder, k)) : r < t.refs.length := lt_length h

/-! ### References -/

theorem ref_refer : (t.refer holder k).ref r = if r = t.refs.length then some (holder, k) else t.ref r := get_append

theorem ref_close (hr : t.ref r = some (holder, k)) : (t.close r).ref q = if q = r then none else t.ref q :=
  get_set (o := none) hr

theorem ref_closeAll [DecidableEq κ] : (t.closeAll holder).ref r = (t.ref r).filter fun x => x.1 ≠ holder := by
  unfold ref closeAll Slots.get
  rw [List.getElem?_map]
  cases t.refs[r]? with
  | none => rfl
  | some o => rfl

theorem live_refer : (t.refer holder k).live j = true ↔ j = k ∨ t.live j = true := by
  rw [live_iff, live_iff]
  constructor
  · rintro ⟨r, h, hr⟩
    rw [ref_refer] at hr
    split at hr
    · cases hr
      exact .inl rfl
    · exact .inr ⟨r, h, hr⟩
  · rintro (rfl | ⟨r, h, hr⟩)
    · exact ⟨t.refs.length, holder, by rw [ref_refer, if_pos rfl]⟩
    · refine ⟨r, h, ?_⟩
      rw [ref_refer, if_neg (Nat.ne_of_lt (ref_lt hr))]
      exact hr

theorem live_of_close (hr : t.ref r = some (holder, k)) (h : (t.close r).live j = true) : t.live j = true := by
  obtain ⟨q, h, hq⟩ := live_iff.1 h
  rw [ref_close hr] at hq
  split at hq
  · cases hq
  · exact live_iff.2 ⟨q, h, hq⟩

theorem live_of_closeAll [DecidableEq κ] (h : (t.closeAll holder).live j = true) : t.live j = true := by
  obtain ⟨q, h, hq⟩ := live_iff.1 h
  rw [ref_closeAll] at hq
  exact live_iff.2 ⟨q, h, (Option.filter_eq_some_iff.1 hq).1⟩

/-! ### Names -/

section
variable [DecidableEq ν]

theorem find_some (h : t.find a = some k) : t.live k = true ∧ t.name k = some a := by
  have := List.find?_some h
  simpa using this

theorem find_none (h : t.find a = none) (hk : t.live k = true) : t.name k ≠ some a := by
  intro hn
  have := List.find?_eq_none.1 h k (List.mem_range.2 (name_lt hn))
  rw [hk, hn] at this
  simp at this

/-- The live object with a name is the one that the name stands for. -/
theorem Wf.find_eq (hw : t.Wf) (hk : t.live k = true) (hn : t.name k = some a) : t.find a = some k := by
  cases hf : t.find a with
  | none => exact absurd hn (find_none hf hk)
  | some j =>
    obtain ⟨hj, hnj⟩ := find_some hf
    rw [hw.unique hj hk (hnj.trans hn.symm)]

end

/-! ### Well-formed tables -/

namespace Wf

theorem empty : ({} : NamedObjects ν κ α).Wf where
  bound h := by cases h
  unique h := by cases h
  closes := List.nodup_nil
  closed h := by cases h

theorem live_lt (hw : t.Wf) (hk : t.live k = true) : k < t.objects.length := by
  obtain ⟨r, holder, hr⟩ := live_iff.1 hk
  exact hw.bound hr

/-- A reference to an object that lives, or whose name is free. -/
theorem refer (hw : t.Wf) (hk : k < t.objects.length)
    (hname : ∀ j, t.live j = true → t.name j = t.name k → j = k) : (t.refer holder k).Wf where
  bound {r h j} hr := by
    rw [ref_refer] at hr
    split at hr
    · cases hr
      exact hk
    · exact hw.bound hr
  unique {j i} hj hi hn := by
    rw [live_refer] at hj hi
    rcases hj with rfl | hj
    · rcases hi with rfl | hi
      · rfl
      · exact (hname i hi hn.symm).symm
    · rcases hi with rfl | hi
      · exact hname j hj hn
      · exact hw.unique hj hi hn
  closes := hw.closes
  closed {r} hr := by
    obtain ⟨hlt, hnone⟩ := hw.closed hr
    refine ⟨?_, ?_⟩
    · show r < (t.refs ++ [some (holder, k)]).length
      rw [List.length_append]
      omega
    · rw [ref_refer, if_neg (Nat.ne_of_lt hlt), hnone]

theorem close (hw : t.Wf) (hr : t.ref r = some (holder, k)) : (t.close r).Wf where
  bound {q h j} hq := by
    rw [ref_close hr] at hq
    split at hq
    · cases hq
    · exact hw.bound hq
  unique hj hi hn := hw.unique (live_of_close hr hj) (live_of_close hr hi) hn
  closes := by
    refine List.nodup_append.2 ⟨hw.closes, List.nodup_singleton r, fun q hq s hs => ?_⟩
    rintro rfl
    rw [List.mem_singleton.1 hs] at hq
    rw [(hw.closed hq).2] at hr
    cases hr
  closed {q} hq := by
    have hlen : (t.close r).refs.length = t.refs.length := List.length_set
    rw [hlen, ref_close hr]
    rcases List.mem_append.1 hq with hq | hq
    · obtain ⟨hlt, hnone⟩ := hw.closed hq
      exact ⟨hlt, by rw [hnone, ite_self]⟩
    · rw [List.mem_singleton.1 hq]
      exact ⟨ref_lt hr, if_pos rfl⟩

theorem closeAll [DecidableEq κ] (hw : t.Wf) : (t.closeAll holder).Wf where
  bound {r h j} hr := by
    rw [ref_closeAll] at hr
    exact hw.bound (Option.filter_eq_some_iff.1 hr).1
  unique hj hi hn := hw.unique (live_of_closeAll hj) (live_of_closeAll hi) hn
  closes := hw.closes
  closed {r} hr := by
    obtain ⟨hlt, hnone⟩ := hw.closed hr
    refine ⟨?_, by rw [ref_closeAll, hnone]; rfl⟩
    show r < (t.refs.map _).length
    rw [List.length_map]
    exact hlt

/-- An object made under a free name, not yet referred to. -/
theorem addObject (hw : t.Wf) : ({ t with objects := t.objects ++ [(a, x)] } : NamedObjects ν κ α).Wf where
  bound {r h j} hr := by
    have := hw.bound (t := t) hr
    rw [List.length_append]
    omega
  unique {j i} hj hi hn := by
    have hj : t.live j = true := hj
    have hi : t.live i = true := hi
    refine hw.unique hj hi ?_
    unfold name at hn ⊢
    rwa [List.getElem?_append_left (hw.live_lt hj), List.getElem?_append_left (hw.live_lt hi)] at hn
  closes := hw.closes
  closed hr := hw.closed hr

end Wf

/-! ### What an operation leaves alone -/

/-- `t'` is well-formed and has the objects of `t`, and its references apart from those in `l`. -/
structure Keeps (t t' : NamedObjects ν κ α) (l : List Nat) : Prop where
  wf : t'.Wf
  objects : t.objects <+: t'.objects
  length : t.refs.length ≤ t'.refs.length
  refs {r : Nat} : r ∉ l → t'.ref r = t.ref r

namespace Keeps
variable {t'' : NamedObjects ν κ α} {l l' : List Nat}

theorem refl (hw : t.Wf) : Keeps t t [] := ⟨hw, List.prefix_rfl, Nat.le_refl _, fun _ => rfl⟩

theorem mono (h : Keeps t t' l) (hl : l ⊆ l') : Keeps t t' l' :=
  ⟨h.wf, h.objects, h.length, fun hr => h.refs fun hm => hr (hl hm)⟩

theorem trans (h : Keeps t t' l) (h' : Keeps t' t'' l') : Keeps t t'' (l ++ l') := by
  refine ⟨h'.wf, h.objects.trans h'.objects, Nat.le_trans h.length h'.length, fun hr => ?_⟩
  rw [List.mem_append, not_or] at hr
  rw [h'.refs hr.2, h.refs hr.1]

/-- A reference that is as it was. -/
theorem restore (h : Keeps t t' (r :: l)) (hr : t'.ref r = t.ref r) : Keeps t t' l := by
  refine ⟨h.wf, h.objects, h.length, fun {q} hq => ?_⟩
  by_cases hqr : q = r
  · rw [hqr, hr]
  · exact h.refs fun hm => (List.mem_cons.1 hm).elim hqr hq

theorem name (h : Keeps t t' l) (hn : t.name k = some a) : t'.name k = some a := by
  obtain ⟨x, hx, hax⟩ := Option.map_eq_some_iff.1 hn
  exact Option.map_eq_some_iff.2 ⟨x, Tally.get_of_initial h.objects hx, hax⟩

theorem live (h : Keeps t t' []) : t'.live k = t.live k := by
  rw [Bool.eq_iff_iff, live_iff, live_iff]
  simp only [h.refs List.not_mem_nil]

theorem refer (hw : (t.refer holder k).Wf) : Keeps t (t.refer holder k) [t.refs.length] := by
  refine ⟨hw, List.prefix_rfl, ?_, fun hr => ?_⟩
  · show t.refs.length ≤ (t.refs ++ [some (holder, k)]).length
    rw [List.length_append]
    exact Nat.le_add_right ..
  · rw [ref_refer, if_neg fun heq => hr (List.mem_singleton.2 heq)]

theorem close (hw : t.Wf) (hr : t.ref r = some (holder, k)) : Keeps t (t.close r) [r] :=
  ⟨hw.close hr, List.prefix_rfl, Nat.le_of_eq List.length_set.symm, fun hq => by
    rw [ref_close hr, if_neg fun heq => hq (List.mem_singleton.2 heq)]⟩

/-- A reference is taken and closed again. -/
theorem close_new (h : Keeps t t' [r]) (hr : t'.ref r = some (holder, k)) (hnew : t.refs.length ≤ r) :
    Keeps t (t'.close r) [] := by
  refine ((h.trans (.close h.wf hr)).mono (List.append_subset.2 ⟨List.Subset.refl _, List.Subset.refl _⟩)).restore ?_
  have hold : t.ref r = none := by
    rw [NamedObjects.ref, Slots.get, List.getElem?_eq_none hnew]
    rfl
  rw [ref_close hr, if_pos rfl, hold]

/-- Without a change of references or objects names keep their meaning. -/
theorem find_eq [DecidableEq ν] (h : Keeps t t' []) (ho : t'.objects = t.objects) : t'.find a = t.find a := by
  have hlive : t'.live = t.live := funext fun k => h.live
  unfold find NamedObjects.name
  rw [ho, hlive]

end Keeps

/-! ### Creating and opening -/

section
variable [DecidableEq ν]

/-- A name that is in use opens the object there. -/
theorem create_existing (h : t.find a = some k) : t.create holder a x = (t.refer holder k, true) := by
  rw [create, h]

theorem create_new (h : t.find a = none) : t.create holder a x =
    (({ t with objects := t.objects ++ [(a, x)] } : NamedObjects ν κ α).refer holder t.objects.length, false) := by
  rw [create, h]

theorem Wf.refer_find (hw : t.Wf) (h : t.find a = some k) : (t.refer holder k).Wf := by
  obtain ⟨hk, hn⟩ := find_some h
  exact hw.refer (hw.live_lt hk) fun j hj hnj => hw.unique hj hk hnj

/-- The first reference to an object under a free name. -/
theorem Wf.keeps_new (hw : t.Wf) (h : t.find a = none) :
    Keeps t (({ t with objects := t.objects ++ [(a, x)] } : NamedObjects ν κ α).refer holder t.objects.length)
      [t.refs.length] := by
  have hwf : (({ t with objects := t.objects ++ [(a, x)] } : NamedObjects ν κ α).refer holder t.objects.length).Wf := by
    refine (hw.addObject (a := a) (x := x)).refer ?_ fun j hj hn => ?_
    · show t.objects.length < (t.objects ++ [(a, x)]).length
      rw [List.length_append]
      exact Nat.lt_succ_self _
    · have hj : t.live j = true := hj
      refine absurd ?_ (find_none h hj)
      unfold name at hn ⊢
      rwa [List.getElem?_append_left (hw.live_lt hj), List.getElem?_concat_length, Option.map_some] at hn
  have hk := Keeps.refer hwf
  exact ⟨hwf, List.prefix_append .., hk.length, hk.refs⟩

end

/-! ### Who has which references -/

/-- Every open reference belongs to one slot, which has its holder. -/
structure Owned {ι : Type*} (t : NamedObjects ν κ α) (holder : ι → κ) (slot : ι → List Nat) : Prop where
  exclusive {x y : ι} {r : Nat} : r ∈ slot x → r ∈ slot y → x = y
  refers {x : ι} {r : Nat} : r ∈ slot x → ∃ k, t.ref r = some (holder x, k)
  owner {r : Nat} {h : κ} {k : Nat} : t.ref r = some (h, k) → ∃ x, r ∈ slot x

namespace Owned
variable {ι : Type*} {holder : ι → κ} {slot slot' : ι → List Nat} {x : ι} {l : List Nat} {D : ι → Prop}

/-- An empty slot gets new references. -/
theorem add (h : Owned t holder slot) (hk : Keeps t t' l)
    (hl : ∀ r ∈ l, t.refs.length ≤ r ∧ ∃ k, t'.ref r = some (holder x, k)) (hx : slot x = [])
    (hsame : slot' x = l) (hother : ∀ y, y ≠ x → slot' y = slot y) : Owned t' holder slot' := by
  have hold : ∀ y r, r ∈ slot y → r ∉ l := fun y r hr hm => by
    obtain ⟨k, hk⟩ := h.refers hr
    exact absurd (ref_lt hk) (Nat.not_lt.2 (hl r hm).1)
  have hcases : ∀ y r, r ∈ slot' y → y = x ∧ r ∈ l ∨ y ≠ x ∧ r ∈ slot y := fun y r hr => by
    by_cases hy : y = x
    · rw [hy, hsame] at hr
      exact .inl ⟨hy, hr⟩
    · rw [hother y hy] at hr
      exact .inr ⟨hy, hr⟩
  constructor
  case exclusive =>
    intro y z r hy hz
    rcases hcases y r hy with ⟨rfl, hr⟩ | ⟨-, hr⟩
    · rcases hcases z r hz with ⟨rfl, -⟩ | ⟨-, hr'⟩
      · rfl
      · exact absurd hr (hold z r hr')
    · rcases hcases z r hz with ⟨-, hr'⟩ | ⟨-, hr'⟩
      · exact absurd hr' (hold y r hr)
      · exact h.exclusive hr hr'
  case refers =>
    intro y r hy
    rcases hcases y r hy with ⟨rfl, hr⟩ | ⟨-, hr⟩
    · exact (hl r hr).2
    · rw [hk.refs (hold y r hr)]
      exact h.refers hr
  case owner =>
    intro r p k hr
    by_cases hm : r ∈ l
    · exact ⟨x, by rw [hsame]; exact hm⟩
    · rw [hk.refs hm] at hr
      obtain ⟨y, hy⟩ := h.owner hr
      refine ⟨y, ?_⟩
      rw [hother y]
      · exact hy
      · rintro rfl
        rw [hx] at hy
        cases hy

/-- Some slots are emptied, and their references closed. -/
theorem drop (h : Owned t holder slot) (hclosed : ∀ x, D x → ∀ r ∈ slot x, t'.ref r = none)
    (hkept : ∀ r, (∀ x, D x → r ∉ slot x) → t'.ref r = t.ref r) (hempty : ∀ x, D x → slot' x = [])
    (hother : ∀ x, ¬ D x → slot' x = slot x) : Owned t' holder slot' := by
  have hmem : ∀ x r, r ∈ slot' x → ¬ D x ∧ r ∈ slot x := fun x r hr => by
    by_cases hD : D x
    · rw [hempty x hD] at hr
      cases hr
    · rw [hother x hD] at hr
      exact ⟨hD, hr⟩
  constructor
  case exclusive => exact fun hx hy => h.exclusive (hmem _ _ hx).2 (hmem _ _ hy).2
  case refers =>
    intro x r hr
    obtain ⟨hD, hr⟩ := hmem x r hr
    rw [hkept r fun y hy hry => hD (by rw [h.exclusive hr hry]; exact hy)]
    exact h.refers hr
  case owner =>
    intro r p k hr
    have hno : ∀ x, D x → r ∉ slot x := fun x hD hx => by
      rw [hclosed x hD r hx] at hr
      cases hr
    rw [hkept r hno] at hr
    obtain ⟨x, hx⟩ := h.owner hr
    exact ⟨x, by rw [hother x fun hD => hno x hD hx]; exact hx⟩

end Owned

end NamedObjects
