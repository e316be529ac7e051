import MemfdBuffer.Proc.Specs
import MemfdBuffer.Lib.Machine

/-!
# Composite calls and whole runs

How the calls of `SharedBufferImpl` and of the API come apart into the calls on single buffers, and that
every reachable world satisfies the invariant.
-/

namespace MemfdBuffer.Proc

section
variable {w w' : World} {i j k l n r elem count : Nat} {s : Buf} {env : AllocEnv}

namespace World

/-- A copy between two buffers is refused by one of the handles, or goes through both. -/
theorem copyInto_cases {res : Except Exn Unit} (he : w.copyInto i j n = some (w', res)) :
    (∃ x, res = .error x ∧ w.getReadHandle i = some (w', .error x)) ∨
      ∃ w₁ r, w.getReadHandle i = some (w₁, .ok r) ∧
        ((∃ x w₂, res = .error x ∧ w₁.getWriteHandle j = some (w₂, .error x) ∧ w' = w₂.destroyRead r) ∨
          ∃ w₂ l bytes w₃, res = .ok () ∧ w₁.getWriteHandle j = some (w₂, .ok l) ∧
            w₂.shown r n = some bytes ∧ w₂.fill l bytes = some w₃ ∧
            w' = (w₃.destroyWrite l).destroyRead r) := by
  unfold copyInto at he
  obtain ⟨⟨w₁, res₁⟩, h₁, h₂⟩ := Option.bind_eq_some_iff.1 he
  cases res₁ with
  | error x =>
    cases h₂
    exact .inl ⟨x, rfl, h₁⟩
  | ok r =>
    refine .inr ⟨w₁, r, h₁, ?_⟩
    obtain ⟨⟨w₂, res₂⟩, h₃, h₄⟩ := Option.bind_eq_some_iff.1 h₂
    cases res₂ with
    | error x =>
      cases h₄
      exact .inl ⟨x, w₂, rfl, h₃, rfl⟩
    | ok l =>
      obtain ⟨bytes, h₅, h₆⟩ := Option.bind_eq_some_iff.1 h₄
      obtain ⟨w₃, h₇, h₈⟩ := Option.bind_eq_some_iff.1 h₆
      cases h₈
      exact .inr ⟨w₂, l, bytes, w₃, rfl, h₃, h₅, h₇, rfl⟩

/-- The last part of `resize`: the new buffer in slot `j` replaces the old one. -/
def swapIn (w : World) (i j count : Nat) : World := ((w.assign i j).setSize i count).destroyBuf j

/-- A `resize` does nothing, clears, fails on the way with the new buffer given back, or puts the new buffer
in place. -/
theorem resize_cases {res : Except Exn Unit} (he : w.resize i count env = some (w', res)) :
    ∃ s, w.buf i = some s ∧
      ((count = s.impl.size ∧ w' = w ∧ res = .ok ()) ∨
        (count ≠ s.impl.size ∧ count = 0 ∧ w' = w.clear i ∧ res = .ok ()) ∨
        (count ≠ s.impl.size ∧ count ≠ 0 ∧
          ((∃ x, res = .error x ∧ w.allocateRaw s.elem count env = (w', .error x)) ∨
            ∃ w₁ j, w.allocateRaw s.elem count env = (w₁, .ok j) ∧
              ((¬(0 < min count s.impl.size * s.elem ∧ s.shared.dataPtr ≠ none) ∧
                  w' = w₁.swapIn i j count ∧ res = .ok ()) ∨
                (0 < min count s.impl.size * s.elem ∧ s.shared.dataPtr ≠ none) ∧
                  ((∃ x w₂, res = .error x ∧
                      w₁.copyInto i j (min count s.impl.size * s.elem) = some (w₂, .error x) ∧
                      w' = w₂.destroyBuf j) ∨
                    ∃ w₂, w₁.copyInto i j (min count s.impl.size * s.elem) = some (w₂, .ok ()) ∧
                      w' = w₂.swapIn i j count ∧ res = .ok ()))))) := by
  unfold resize at he
  obtain ⟨s, hs, h₁⟩ := Option.bind_eq_some_iff.1 he
  refine ⟨s, hs, ?_⟩
  split at h₁
  · cases h₁
    exact .inl ⟨‹_›, rfl, rfl⟩
  · rename_i hne
    right
    split at h₁
    · cases h₁
      exact .inl ⟨hne, ‹_›, rfl, rfl⟩
    · rename_i h0
      refine .inr ⟨hne, h0, ?_⟩
      cases ha : w.allocateRaw s.elem count env with
      | mk w₁ res₁ =>
        rw [ha] at h₁
        cases res₁ with
        | error x =>
          cases h₁
          exact .inl ⟨x, rfl, rfl⟩
        | ok j =>
          refine .inr ⟨w₁, j, rfl, ?_⟩
          dsimp only at h₁
          split at h₁
          · refine .inr ⟨‹_›, ?_⟩
            obtain ⟨⟨w₂, res₂⟩, h₂, h₃⟩ := Option.bind_eq_some_iff.1 h₁
            cases res₂ with
            | error x =>
              cases h₃
              exact .inl ⟨x, w₂, rfl, h₂, rfl⟩
            | ok _ =>
              cases h₃
              exact .inr ⟨w₂, h₂, rfl, rfl⟩
          · cases h₁
            exact .inl ⟨‹_›, rfl, rfl⟩

theorem toCpu_cases {res : Except Exn (List UInt8)} (he : w.toCpu i = some (w', res)) : ∃ s, w.buf i = some s ∧
    ((s.impl.size = 0 ∧ w' = w ∧ res = .ok []) ∨
      s.impl.size ≠ 0 ∧
        ((∃ x, res = .error x ∧ w.getReadHandle i = some (w', .error x)) ∨
          ∃ w₁ r bytes, res = .ok bytes ∧ w.getReadHandle i = some (w₁, .ok r) ∧
            w₁.shown r (s.impl.size * s.elem) = some bytes ∧ w' = w₁.destroyRead r)) := by
  unfold toCpu at he
  obtain ⟨s, hs, h₁⟩ := Option.bind_eq_some_iff.1 he
  refine ⟨s, hs, ?_⟩
  split at h₁
  · cases h₁
    exact .inl ⟨‹_›, rfl, rfl⟩
  · refine .inr ⟨‹_›, ?_⟩
    obtain ⟨⟨w₁, res₁⟩, h₂, h₃⟩ := Option.bind_eq_some_iff.1 h₁
    cases res₁ with
    | error x =>
      cases h₃
      exact .inl ⟨x, rfl, h₂⟩
    | ok r =>
      obtain ⟨bytes, h₄, h₅⟩ := Option.bind_eq_some_iff.1 h₃
      cases h₅
      exact .inr ⟨w₁, r, bytes, rfl, h₂, h₄, rfl⟩

theorem clone_cases {res : Except Exn Nat} (he : w.clone i env = some (w', res)) : ∃ s, w.buf i = some s ∧
    ((∃ x, res = .error x ∧ w.construct s.elem s.impl.size env = (w', .error x)) ∨
      ∃ w₁ j, w.construct s.elem s.impl.size env = (w₁, .ok j) ∧
        ((s.impl.size = 0 ∧ w' = w₁ ∧ res = .ok j) ∨
          s.impl.size ≠ 0 ∧
            ((∃ x w₂, res = .error x ∧ w₁.copyInto i j (s.impl.size * s.elem) = some (w₂, .error x) ∧
                w' = w₂.destroyBuf j) ∨
              res = .ok j ∧ w₁.copyInto i j (s.impl.size * s.elem) = some (w', .ok ())))) := by
  unfold clone at he
  obtain ⟨s, hs, h₁⟩ := Option.bind_eq_some_iff.1 he
  refine ⟨s, hs, ?_⟩
  cases ha : w.construct s.elem s.impl.size env with
  | mk w₁ res₁ =>
    rw [ha] at h₁
    cases res₁ with
    | error x =>
      cases h₁
      exact .inl ⟨x, rfl, rfl⟩
    | ok j =>
      refine .inr ⟨w₁, j, rfl, ?_⟩
      dsimp only at h₁
      split at h₁
      · refine .inr ⟨by omega, ?_⟩
        obtain ⟨⟨w₂, res₂⟩, h₂, h₃⟩ := Option.bind_eq_some_iff.1 h₁
        cases res₂ with
        | error x =>
          cases h₃
          exact .inl ⟨x, w₂, rfl, h₂, rfl⟩
        | ok _ =>
          cases h₃
          exact .inr ⟨rfl, h₂⟩
      · cases h₁
        exact .inl ⟨by omega, rfl, rfl⟩

theorem promote_cases {source : List UInt8} {res : Except Exn Nat}
    (he : w.promote elem count source env = some (w', res)) :
    ((count = 0 ∨ count > sizeMax / elem) ∧ w' = w ∧ ∃ x, res = .error x) ∨
      count ≠ 0 ∧
        ((∃ x, res = .error x ∧ w.construct 1 (count * elem) env = (w', .error x)) ∨
          ∃ w₁ j, w.construct 1 (count * elem) env = (w₁, .ok j) ∧
            ((∃ x w₂, res = .error x ∧ w₁.getWriteHandle j = some (w₂, .error x) ∧ w' = w₂.destroyBuf j) ∨
              ∃ w₂ l w₃, w₁.getWriteHandle j = some (w₂, .ok l) ∧ w₂.fill l source = some w₃ ∧
                ((∃ x w₄, res = .error x ∧ (w₃.destroyWrite l).getReadHandle j = some (w₄, .error x) ∧
                    w' = w₄.destroyBuf j) ∨
                  ∃ w₄ r, (w₃.destroyWrite l).getReadHandle j = some (w₄, .ok r) ∧
                    w' = w₄.setPromotedBuffer r j ∧ res = .ok r))) := by
  unfold promote at he
  split at he
  · cases he
    exact .inl ⟨.inl ‹_›, rfl, _, rfl⟩
  · rename_i h0
    split at he
    · cases he
      exact .inl ⟨.inr ‹_›, rfl, _, rfl⟩
    · refine .inr ⟨h0, ?_⟩
      cases ha : w.construct 1 (count * elem) env with
      | mk w₁ res₁ =>
        rw [ha] at he
        cases res₁ with
        | error x =>
          cases he
          exact .inl ⟨x, rfl, rfl⟩
        | ok j =>
          refine .inr ⟨w₁, j, rfl, ?_⟩
          obtain ⟨⟨w₂, res₂⟩, h₂, h₃⟩ := Option.bind_eq_some_iff.1 he
          cases res₂ with
          | error x =>
            cases h₃
            exact .inl ⟨x, w₂, rfl, h₂, rfl⟩
          | ok l =>
            obtain ⟨w₃, h₄, h₅⟩ := Option.bind_eq_some_iff.1 h₃
            refine .inr ⟨w₂, l, w₃, h₂, h₄, ?_⟩
            obtain ⟨⟨w₄, res₄⟩, h₆, h₇⟩ := Option.bind_eq_some_iff.1 h₅
            cases res₄ with
            | error x =>
              cases h₇
              exact .inl ⟨x, w₄, rfl, h₆, rfl⟩
            | ok r =>
              cases h₇
              exact .inr ⟨w₄, r, h₆, rfl, rfl⟩

end World

namespace Inv

theorem copyInto (hi : Inv w []) {res : Except Exn Unit} (he : w.copyInto i j n = some (w', res)) : Inv w' [] := by
  rcases World.copyInto_cases he with ⟨x, -, h₁⟩
    | ⟨w₁, r, h₁, ⟨x, w₂, -, h₂, rfl⟩ | ⟨w₂, l, bytes, w₃, -, h₂, -, h₃, rfl⟩⟩
  · exact hi.getReadHandle h₁
  · exact ((hi.getReadHandle h₁).getWriteHandle h₂).destroyRead r
  · exact ((((hi.getReadHandle h₁).getWriteHandle h₂).fill h₃).destroyWrite l).destroyRead r

theorem swapIn (hi : Inv w []) : Inv (w.swapIn i j count) [] :=
  ((hi.assign i j).setSize count).destroyBuf j

theorem resize (hi : Inv w []) {res : Except Exn Unit} (he : w.resize i count env = some (w', res)) :
    Inv w' [] := by
  obtain ⟨s, hs, ⟨-, rfl, -⟩ | ⟨-, -, rfl, -⟩ | ⟨-, -, ⟨x, -, ha⟩ | ⟨w₁, j, ha, ⟨-, rfl, -⟩ |
    ⟨-, ⟨x, w₂, -, hc, rfl⟩ | ⟨w₂, hc, rfl, -⟩⟩⟩⟩⟩ := World.resize_cases he
  · exact hi
  · exact hi.clear i
  · exact hi.allocateRaw (hi.elem hs) ha
  all_goals have hi₁ := hi.allocateRaw (hi.elem hs) ha
  · exact hi₁.swapIn
  · exact (hi₁.copyInto hc).destroyBuf j
  · exact (hi₁.copyInto hc).swapIn

theorem toCpu (hi : Inv w []) {res : Except Exn (List UInt8)} (he : w.toCpu i = some (w', res)) : Inv w' [] := by
  obtain ⟨s, -, ⟨-, rfl, -⟩ | ⟨-, ⟨x, -, h₁⟩ | ⟨w₁, r, bytes, -, h₁, -, rfl⟩⟩⟩ := World.toCpu_cases he
  · exact hi
  · exact hi.getReadHandle h₁
  · exact (hi.getReadHandle h₁).destroyRead r

theorem clone (hi : Inv w []) {res : Except Exn Nat} (he : w.clone i env = some (w', res)) : Inv w' [] := by
  obtain ⟨s, hs, ⟨x, -, ha⟩ | ⟨w₁, j, ha, ⟨-, rfl, -⟩ | ⟨-, ⟨x, w₂, -, hc, rfl⟩ | ⟨-, hc⟩⟩⟩⟩ := World.clone_cases he
  · exact hi.construct (hi.elem hs) ha
  all_goals have hi₁ := hi.construct (hi.elem hs) ha
  · exact hi₁
  · exact (hi₁.copyInto hc).destroyBuf j
  · exact hi₁.copyInto hc

theorem promote (hi : Inv w []) {source : List UInt8} {res : Except Exn Nat}
    (he : w.promote elem count source env = some (w', res)) : Inv w' [] := by
  rcases World.promote_cases he with ⟨-, rfl, -⟩ | ⟨-, ⟨x, -, ha⟩ | ⟨w₁, j, ha, ⟨x, w₂, -, h₂, rfl⟩ |
    ⟨w₂, l, w₃, h₂, h₃, ⟨x, w₄, -, h₄, rfl⟩ | ⟨w₄, r, h₄, rfl, -⟩⟩⟩⟩
  · exact hi
  · exact hi.construct Nat.one_pos ha
  all_goals have hi₁ := hi.construct Nat.one_pos ha
  · exact (hi₁.getWriteHandle h₂).destroyBuf j
  all_goals have hi₃ := ((hi₁.getWriteHandle h₂).fill h₃).destroyWrite l
  · exact (hi₃.getReadHandle h₄).destroyBuf j
  · obtain ⟨s, h, hr, hs, hnone⟩ := World.getReadHandle_slot hi₃ h₄
    exact (hi₃.getReadHandle h₄).setPromotedBuffer hr hnone hs

theorem moveRead (hi : Inv w []) (j : Nat) (hr : (w.read j).isSome) :
    Inv ((w.addRead {}).transferRead w.reads.length j) [] := by
  obtain ⟨r, hr⟩ := Option.isSome_iff_exists.1 hr
  have hlt : j < w.reads.length := Slots.lt_length hr
  exact hi.addBlankRead.transferRead (World.read_addRead.trans (if_pos rfl)) (by omega)

theorem moveWrite (hi : Inv w []) (j : Nat) (hl : (w.write j).isSome) :
    Inv ((w.addWrite {}).transferWrite w.writes.length j) [] := by
  obtain ⟨h, hl⟩ := Option.isSome_iff_exists.1 hl
  have hlt : j < w.writes.length := Slots.lt_length hl
  exact hi.addBlankWrite.transferBlankWrite (World.write_addWrite.trans (if_pos rfl)) (by omega)

end Inv

end

/-- Every call keeps the invariant. -/
theorem Inv.exec {w w' : World} {op : Op} {out : Out} (hi : Inv w []) (he : exec w op = some (w', out)) :
    Inv w' [] := by
  cases exec_ran he with
  | construct helem hc => exact hi.construct helem hc
  | adopt helem hj => exact hi.adopt helem hj
  | @destroyBuf i => exact hi.destroyBuf i
  | @assign i j => exact hi.assign i j
  | resize h => exact hi.resize h
  | @clear i => exact hi.clear i
  | clone h => exact hi.clone h
  | toCpu h => exact hi.toCpu h
  | fromOutputBuffer h =>
    obtain ⟨rfl, -⟩ | h := World.fromOutputBuffer_cases h
    · exact hi
    · exact hi.getWriteHandle h
  | fromInputBuffer h =>
    obtain ⟨rfl, -⟩ | h := World.fromInputBuffer_cases h
    · exact hi
    · exact hi.getReadHandle h
  | promote _ _ h => exact hi.promote h
  | getReadHandle h => exact hi.getReadHandle h
  | getWriteHandle h => exact hi.getWriteHandle h
  | @finalizeWriteHandle _ s => exact hi.finalizeWriteHandle s.shared
  | holdReaderReference h => exact hi.holdReaderReference h
  | @moveRead j _ hr => exact hi.moveRead j (by rw [hr]; rfl)
  | assignRead hr =>
    split
    · exact hi
    · exact hi.assignRead hr ‹_›
  | @destroyRead j => exact hi.destroyRead j
  | @moveWrite j _ hl => exact hi.moveWrite j (by rw [hl]; rfl)
  | assignWrite hl =>
    split
    · exact hi
    · exact hi.assignWrite hl ‹_›
  | @destroyWrite j => exact hi.destroyWrite j
  | writeByte h => exact hi.writeByte h
  | onDiscoveringEndpoint =>
    exact ⟨hi.pool, hi.elem, fun hx => (hi.buffers hx).congr (fun b x hb => ⟨x, hb, rfl⟩) le_rfl,
      fun hr => (hi.reads hr).congr (fun b x hb => ⟨x, hb⟩) le_rfl,
      fun hl => (hi.writes hl).congr (fun b x hb => ⟨x, hb⟩) le_rfl, hi.owned, hi.leased, hi.states, hi.sharers,
      hi.readBound, hi.writeBound⟩
  | createDescriptor h => exact hi.createDescriptor h
  | @outside act => exact hi.outside act

/-- The worlds that calls and other processes can bring about. -/
abbrev Reachable (w : World) : Prop := Machine.Reach step Init w

theorem step_exec {w w' : World} {op : Op} (h : step w op = some w') : ∃ out, exec w op = some (w', out) := by
  obtain ⟨⟨w₁, out⟩, he, rfl⟩ := Option.map_eq_some_iff.1 h
  exact ⟨out, he⟩

theorem Init.inv {w : World} (h : Init w) : Inv w [] := by
  obtain ⟨euid, pid, metadata, rfl⟩ := h
  have hnone : ∀ x, ¬ World.Holds { euid := euid, pid := pid, metadata := metadata } x := by
    rintro x (⟨i, s, hs, -⟩ | ⟨j, r, impl, hr, -⟩)
    · simp [World.buf, Slots.get] at hs
    · simp [World.read, Slots.get] at hr
  exact ⟨.empty, fun hs => by simp [World.buf, Slots.get] at hs, fun hx => absurd hx (hnone _),
    fun hr => by simp [World.read, Slots.get] at hr, fun hl => by simp [World.write, Slots.get] at hl,
    fun hb => by simp at hb, fun hb => by simp at hb, fun hn => by simp at hn, fun n => Nat.zero_le 1,
    fun _ hx => absurd hx (hnone _), fun _ hx => absurd hx (hnone _)⟩

theorem Reachable.inv {w : World} (h : Reachable w) : Inv w [] :=
  Machine.ReachIf.inv (P := fun w => Inv w []) (fun _ => Init.inv)
    (fun _ _ _ hi _ hs => let ⟨_, he⟩ := step_exec hs; hi.exec he) h

end MemfdBuffer.Proc
