import Mathlib.Logic.Function.Basic
import Mathlib.Data.List.Basic

/-!
# Descriptor tables

The table of open descriptors of a process. An `openAt` makes a descriptor of its own under a free number;
a `close` frees the number, which may then be handed out again. `closes` records which descriptor each
close has hit. `Wf` says that a descriptor is open under one number, or has been closed once.
-/

structure FdTable (α : Type*) where
  /-- The descriptor under a number. -/
  fds : Nat → Option Nat := fun _ => none
  /-- What each descriptor ever made refers to. -/
  descs : List α := []
  closes : List (Option Nat) := []

namespace FdTable

variable {α : Type*} {t t' : FdTable α} {n m d : Nat} {x y : α}

/-- What number `n` refers to. -/
def object (t : FdTable α) (n : Nat) : Option α := (t.fds n).bind fun d => t.descs[d]?

def openAt (t : FdTable α) (n : Nat) (x : α) : Option (FdTable α) :=
  if t.fds n = none then
    some { t with fds := Function.update t.fds n (some t.descs.length), descs := t.descs ++ [x] }
  else none

def close (t : FdTable α) (n : Nat) : FdTable α :=
  { t with fds := Function.update t.fds n none, closes := t.closes ++ [t.fds n] }

structure Wf (t : FdTable α) : Prop where
  bound {n d : Nat} : t.fds n = some d → d < t.descs.length
  inj {n m d : Nat} : t.fds n = some d → t.fds m = some d → n = m
  closed {n d : Nat} : some d ∈ t.closes → t.fds n ≠ some d
  past {d : Nat} : some d ∈ t.closes → d < t.descs.length
  once (d : Nat) : t.closes.count (some d) ≤ 1
  kept {d : Nat} : d < t.descs.length → (∃ n, t.fds n = some d) ∨ some d ∈ t.closes

/-! ### The operations -/

theorem openAt_eq_some : t.openAt n x = some t' ↔
    t.fds n = none ∧ t' = { t with fds := Function.update t.fds n (some t.descs.length), descs := t.descs ++ [x] } := by
  unfold openAt
  split
  · rename_i h
    rw [Option.some.injEq]
    exact ⟨fun ht => ⟨h, ht.symm⟩, fun ht => ht.2.symm⟩
  · rename_i h
    constructor
    · intro ht
      cases ht
    · intro ht
      exact absurd ht.1 h

theorem fds_close (t : FdTable α) (n m : Nat) : (t.close n).fds m = if m = n then none else t.fds m :=
  Function.update_apply ..

@[simp] theorem descs_close (t : FdTable α) (n : Nat) : (t.close n).descs = t.descs := rfl

theorem fds_openAt (h : t.openAt n x = some t') (m : Nat) :
    t'.fds m = if m = n then some t.descs.length else t.fds m := by
  obtain ⟨-, rfl⟩ := openAt_eq_some.1 h
  exact Function.update_apply ..

theorem descs_openAt (h : t.openAt n x = some t') : t'.descs = t.descs ++ [x] := by
  obtain ⟨-, rfl⟩ := openAt_eq_some.1 h
  rfl

theorem free_of_openAt (h : t.openAt n x = some t') : t.fds n = none := (openAt_eq_some.1 h).1

/-- Closing what was just opened brings the numbers back. -/
theorem close_openAt (h : t.openAt n x = some t') : (t'.close n).fds = t.fds := by
  funext m
  rw [fds_close, fds_openAt h]
  split
  · rename_i hm
    rw [hm, free_of_openAt h]
  · rfl

theorem object_of_fds {t' : FdTable α} (h : t.fds n = some d) (hd : d < t.descs.length) (hn : t'.fds n = some d)
    (hl : t.descs <+: t'.descs) : t'.object n = t.object n := by
  obtain ⟨l, hl⟩ := hl
  rw [object, object, h, hn, Option.bind_some, Option.bind_some, ← hl, List.getElem?_append_left hd]

/-- Other numbers keep their meaning. -/
theorem object_openAt (hw : t.Wf) (h : t.openAt n x = some t') (hm : m ≠ n) : t'.object m = t.object m := by
  have hf := fds_openAt h m
  rw [if_neg hm] at hf
  cases hd : t.fds m with
  | none => rw [object, object, hf, hd, Option.bind_none, Option.bind_none]
  | some d =>
    rw [hd] at hf
    refine object_of_fds hd (hw.bound hd) hf ?_
    rw [descs_openAt h]
    exact List.prefix_append ..

theorem object_openAt_self (h : t.openAt n x = some t') : t'.object n = some x := by
  rw [object, fds_openAt h, if_pos rfl, descs_openAt h]
  exact List.getElem?_concat_length

theorem object_close (hm : m ≠ n) : (t.close n).object m = t.object m := by
  rw [object, object, fds_close, if_neg hm, descs_close]

/-! ### Well-formed tables -/

namespace Wf

theorem openAt (hw : t.Wf) (h : t.openAt n x = some t') : t'.Wf := by
  have hlen : t'.descs.length = t.descs.length + 1 := by rw [descs_openAt h, List.length_append]; rfl
  have hcl : t'.closes = t.closes := by
    obtain ⟨-, rfl⟩ := openAt_eq_some.1 h
    rfl
  refine ⟨fun {m d} hm => ?_, fun {m k d} hm hk => ?_, fun {m d} hd hm => ?_, fun {d} hd => ?_,
    fun d => ?_, fun {d} hd => ?_⟩
  · rw [fds_openAt h] at hm
    split at hm
    · cases hm
      omega
    · have := hw.bound hm
      omega
  · rw [fds_openAt h] at hm hk
    split at hm <;> split at hk
    · omega
    · cases hm
      have := hw.bound hk
      omega
    · cases hk
      have := hw.bound hm
      omega
    · exact hw.inj hm hk
  · rw [hcl] at hd
    rw [fds_openAt h] at hm
    split at hm
    · cases hm
      exact Nat.lt_irrefl _ (hw.past hd)
    · exact hw.closed hd hm
  · rw [hcl] at hd
    have := hw.past hd
    omega
  · rw [hcl]
    exact hw.once d
  · rw [hcl]
    rw [hlen] at hd
    rcases Nat.lt_succ_iff_lt_or_eq.1 hd with hd | rfl
    · rcases hw.kept hd with ⟨m, hm⟩ | hmem
      · refine .inl ⟨m, ?_⟩
        rw [fds_openAt h, if_neg, hm]
        rintro rfl
        rw [free_of_openAt h] at hm
        cases hm
      · exact .inr hmem
    · refine .inl ⟨n, ?_⟩
      rw [fds_openAt h, if_pos rfl]

theorem close (hw : t.Wf) (n : Nat) : (t.close n).Wf := by
  refine ⟨fun {m d} hm => ?_, fun {m k d} hm hk => ?_, fun {m d} hd hm => ?_, fun {d} hd => ?_,
    fun d => ?_, fun {d} hd => ?_⟩
  · rw [fds_close] at hm
    split at hm
    · cases hm
    · exact hw.bound hm
  · rw [fds_close] at hm hk
    split at hm <;> split at hk
    · omega
    · cases hm
    · cases hk
    · exact hw.inj hm hk
  · rw [fds_close] at hm
    split at hm
    · cases hm
    · rename_i hne
      rcases List.mem_append.1 hd with hd | hd
      · exact hw.closed hd hm
      · exact hne (hw.inj hm (List.mem_singleton.1 hd).symm)
  · rcases List.mem_append.1 hd with hd | hd
    · exact hw.past hd
    · exact hw.bound (List.mem_singleton.1 hd).symm
  · show (t.closes ++ [t.fds n]).count (some d) ≤ 1
    rw [List.count_append, List.count_singleton]
    split
    · rename_i hd
      have hd : t.fds n = some d := by simpa using hd
      have hnot : some d ∉ t.closes := fun hmem => hw.closed hmem hd
      simp [List.count_eq_zero_of_not_mem hnot]
    · exact hw.once d
  · rcases hw.kept hd with ⟨m, hm⟩ | hmem
    · by_cases hmn : m = n
      · subst hmn
        exact .inr (List.mem_append.2 (.inr (by rw [hm]; exact List.mem_singleton_self _)))
      · refine .inl ⟨m, ?_⟩
        rw [fds_close, if_neg hmn, hm]
    · exact .inr (List.mem_append.2 (.inl hmem))

/-- A descriptor that is open no more has been closed exactly once. -/
theorem closed_once (hw : t.Wf) (hd : d < t.descs.length) (h : ∀ n, t.fds n ≠ some d) :
    t.closes.count (some d) = 1 := by
  rcases hw.kept hd with ⟨n, hn⟩ | hmem
  · exact absurd hn (h n)
  · have := hw.once d
    have := List.count_pos_iff.2 hmem
    omega

end Wf

/-! ### The numbers in use -/

/-- `l` are the numbers in use, and every close has hit one. -/
structure Lists (t : FdTable α) (l : List Nat) : Prop where
  wf : t.Wf
  hit : none ∉ t.closes
  nodup : l.Nodup
  mem (n : Nat) : t.fds n ≠ none ↔ n ∈ l

namespace Lists

variable {l l' : List Nat}

theorem perm (h : t.Lists l) (hp : l.Perm l') : t.Lists l' :=
  ⟨h.wf, h.hit, h.nodup.perm hp, fun n => (h.mem n).trans hp.mem_iff⟩

/-- The numbers are all that counts. -/
theorem of_fds (h : t.Lists l) (hf : t'.fds = t.fds) (hw : t'.Wf) (hc : none ∉ t'.closes) : t'.Lists l := by
  refine ⟨hw, hc, h.nodup, fun n => ?_⟩
  rw [hf]
  exact h.mem n

theorem openAt (h : t.Lists l) (ho : t.openAt n x = some t') : t'.Lists (n :: l) := by
  have hfree : n ∉ l := fun hn => (h.mem n).2 hn (free_of_openAt ho)
  refine ⟨h.wf.openAt ho, ?_, List.nodup_cons.2 ⟨hfree, h.nodup⟩, fun m => ?_⟩
  · obtain ⟨-, rfl⟩ := openAt_eq_some.1 ho
    exact h.hit
  · rw [fds_openAt ho, List.mem_cons]
    split
    · rename_i hm
      exact ⟨fun _ => .inl hm, fun _ => Option.some_ne_none _⟩
    · rename_i hm
      rw [h.mem]
      exact ⟨.inr, fun hor => hor.resolve_left hm⟩

theorem close (h : t.Lists (n :: l)) : (t.close n).Lists l := by
  obtain ⟨hnot, hnodup⟩ := List.nodup_cons.1 h.nodup
  refine ⟨h.wf.close n, fun hmem => ?_, hnodup, fun m => ?_⟩
  · rcases List.mem_append.1 hmem with hmem | hmem
    · exact h.hit hmem
    · exact (h.mem n).2 (List.mem_cons_self ..) (List.mem_singleton.1 hmem).symm
  · rw [fds_close]
    split
    · rename_i hm
      rw [hm]
      exact ⟨fun hne => absurd rfl hne, fun hl => absurd hl hnot⟩
    · rename_i hm
      rw [h.mem, List.mem_cons]
      exact ⟨fun hor => hor.resolve_left hm, .inr⟩

end Lists

end FdTable
