import Mathlib.Data.List.Pairwise
import Mathlib.Data.List.Perm.Basic

/-!
# Address spaces

The mapped regions of an address space. `mmap` adds a region apart from all others, which is neither at address zero
nor beyond `limit`; `munmap` takes a range of addresses out of whatever is mapped there.
-/

structure Region where
  start : Nat
  size : Nat
deriving DecidableEq, Repr

namespace Region

def stop (r : Region) : Nat := r.start + r.size

def Mem (r : Region) (a : Nat) : Prop := r.start ≤ a ∧ a < r.stop

def Apart (r r' : Region) : Prop := r.stop ≤ r'.start ∨ r'.stop ≤ r.start

/-- What is left of `r` without the addresses of `cut`. -/
def minus (r cut : Region) : List Region :=
  let below : Region := ⟨r.start, min r.stop cut.start - r.start⟩
  let above : Region := ⟨max r.start cut.stop, r.stop - max r.start cut.stop⟩
  [below, above].filter fun part => 0 < part.size

instance (r r' : Region) : Decidable (r.Apart r') := by
  unfold Apart
  infer_instance

variable {r r' cut : Region} {a : Nat}

theorem Apart.symm (h : r.Apart r') : r'.Apart r := Or.symm h

/-- Apart regions have no address in common. -/
theorem Apart.not_mem (h : r.Apart r') (ha : r.Mem a) : ¬ r'.Mem a := by
  obtain ⟨h1, h2⟩ := ha
  rintro ⟨h1', h2'⟩
  rcases h with h | h <;> omega

theorem minus_of_apart (hr : 0 < r.size) (h : r.Apart cut) : r.minus cut = [r] := by
  obtain ⟨start, size⟩ := r
  unfold Apart stop at h
  unfold minus stop
  dsimp only at hr h ⊢
  rcases h with h | h
  · have hbelow : min (start + size) cut.start - start = size := by omega
    have habove : start + size - max start (cut.start + cut.size) = 0 := by omega
    rw [hbelow, habove, List.filter_cons_of_pos (by simpa using hr), List.filter_cons_of_neg (by simp), List.filter_nil]
  · have hbelow : min (start + size) cut.start - start = 0 := by omega
    have hmax : max start (cut.start + cut.size) = start := by omega
    have habove : start + size - start = size := by omega
    rw [hbelow, hmax, habove, List.filter_cons_of_neg (by simp), List.filter_cons_of_pos (by simpa using hr),
      List.filter_nil]

theorem minus_self : r.minus r = [] := by
  unfold minus stop
  have hbelow : min (r.start + r.size) r.start - r.start = 0 := by omega
  have habove : r.start + r.size - max r.start (r.start + r.size) = 0 := by omega
  dsimp only
  rw [hbelow, habove, List.filter_cons_of_neg (by simp), List.filter_cons_of_neg (by simp), List.filter_nil]

end Region

abbrev AddressSpace := List Region

namespace AddressSpace

def mmap (limit : Nat) (s : AddressSpace) (r : Region) : Option AddressSpace :=
  if 0 < r.start ∧ 0 < r.size ∧ r.stop ≤ limit ∧ ∀ r' ∈ s, r.Apart r' then some (r :: s) else none

def munmap (s : AddressSpace) (cut : Region) : AddressSpace := s.flatMap (·.minus cut)

/-- Regions are apart from each other and in the bounds of the space. -/
structure Wf (limit : Nat) (s : AddressSpace) : Prop where
  apart : s.Pairwise Region.Apart
  bounds {r : Region} : r ∈ s → 0 < r.start ∧ 0 < r.size ∧ r.stop ≤ limit

variable {limit : Nat} {s s' t : AddressSpace} {r : Region}

theorem mmap_eq_some : mmap limit s r = some s' ↔
    (0 < r.start ∧ 0 < r.size ∧ r.stop ≤ limit ∧ ∀ r' ∈ s, r.Apart r') ∧ s' = r :: s := by
  unfold mmap
  split
  · rename_i h
    rw [Option.some.injEq]
    exact ⟨fun hs => ⟨h, hs.symm⟩, fun hs => hs.2.symm⟩
  · rename_i h
    constructor
    · intro hs
      cases hs
    · intro hs
      exact absurd hs.1 h

theorem munmap_of_apart (hpos : ∀ r' ∈ s, 0 < r'.size) (h : ∀ r' ∈ s, r'.Apart r) : munmap s r = s := by
  unfold munmap
  induction s with
  | nil => rfl
  | cons r' s ih =>
    have hone := Region.minus_of_apart (hpos r' (List.mem_cons_self ..)) (h r' (List.mem_cons_self ..))
    have hrest := ih (fun x hx => hpos x (List.mem_cons_of_mem _ hx)) (fun x hx => h x (List.mem_cons_of_mem _ hx))
    rw [List.flatMap_cons, hone, hrest, List.singleton_append]

namespace Wf

theorem perm (h : Wf limit s) (hp : s.Perm t) : Wf limit t :=
  ⟨h.apart.perm hp fun hxy => hxy.symm, fun hr => h.bounds (hp.mem_iff.2 hr)⟩

theorem mmap (h : Wf limit s) (hm : mmap limit s r = some s') : Wf limit s' ∧ s' = r :: s := by
  obtain ⟨⟨hstart, hsize, hstop, hapart⟩, rfl⟩ := mmap_eq_some.1 hm
  refine ⟨⟨List.pairwise_cons.2 ⟨hapart, h.apart⟩, fun {x} hx => ?_⟩, rfl⟩
  rcases List.mem_cons.1 hx with rfl | hx
  · exact ⟨hstart, hsize, hstop⟩
  · exact h.bounds hx

/-- What was just mapped is unmapped again. -/
theorem munmap_mmap (h : Wf limit s) (hm : AddressSpace.mmap limit s r = some s') : AddressSpace.munmap s' r = s := by
  obtain ⟨⟨-, -, -, hapart⟩, rfl⟩ := mmap_eq_some.1 hm
  have hself : AddressSpace.munmap (r :: s) r = r.minus r ++ AddressSpace.munmap s r := List.flatMap_cons ..
  rw [hself, Region.minus_self, List.nil_append]
  exact munmap_of_apart (fun x hx => (h.bounds hx).2.1) fun x hx => (hapart x hx).symm

/-- A region that is mapped goes as a whole, and nothing else does. -/
theorem munmap (h : Wf limit s) (hp : s.Perm (r :: t)) : Wf limit (munmap s r) ∧ (munmap s r).Perm t := by
  have ht := h.perm hp
  obtain ⟨hapart, hrest⟩ := List.pairwise_cons.1 ht.apart
  have hcut : AddressSpace.munmap (r :: t) r = t := by
    have hself : AddressSpace.munmap (r :: t) r = r.minus r ++ AddressSpace.munmap t r := List.flatMap_cons ..
    rw [hself, Region.minus_self, List.nil_append]
    exact munmap_of_apart (fun x hx => (ht.bounds (List.mem_cons_of_mem _ hx)).2.1) fun x hx => (hapart x hx).symm
  have hperm : (AddressSpace.munmap s r).Perm t := by
    rw [← hcut]
    exact hp.flatMap_right _
  have hwf : Wf limit t := ⟨hrest, fun hx => ht.bounds (List.mem_cons_of_mem _ hx)⟩
  exact ⟨hwf.perm hperm.symm, hperm⟩

/-- An address is in one region at most. -/
theorem unique {i j : Nat} {r' : Region} {a : Nat} (h : Wf limit s) (hi : s[i]? = some r) (hj : s[j]? = some r')
    (ha : r.Mem a) (ha' : r'.Mem a) : i = j := by
  rcases Nat.lt_trichotomy i j with hij | rfl | hij
  · obtain ⟨h1, rfl⟩ := List.getElem?_eq_some_iff.1 hi
    obtain ⟨h2, rfl⟩ := List.getElem?_eq_some_iff.1 hj
    exact absurd ha' ((List.pairwise_iff_getElem.1 h.apart i j h1 h2 hij).not_mem ha)
  · rfl
  · obtain ⟨h1, rfl⟩ := List.getElem?_eq_some_iff.1 hi
    obtain ⟨h2, rfl⟩ := List.getElem?_eq_some_iff.1 hj
    exact absurd ha ((List.pairwise_iff_getElem.1 h.apart j i h2 h1 hij).not_mem ha')

end Wf

end AddressSpace
