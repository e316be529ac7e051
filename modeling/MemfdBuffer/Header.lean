import MemfdBuffer.Lib.Latch
import Mathlib.Data.UInt

/-!
# The control header

`SharedBufferControlHeader` sits at the start of every mapped region. Three of its fields are
atomics shared by all processes: `ipcUid`, `readerState` (bit 31 claims the block for reuse, bits
0-30 count readers) and `publishTimestampUs`. The functions here are the single accesses of
`shared_buffer_memory_pool.hpp`; who performs them in which order is the subject of the modules
above.
-/

namespace MemfdBuffer

def kSharedBufferControlMagic : Nat := 0x5348415245425546
def kSharedBufferControlAbiVersion : Nat := 3
def kSharedBufferPayloadOffset : Nat := 64
def kSharedBufferGracePeriodUs : Nat := 100000
def kSharedBufferReuseClaimed : BitVec 32 := 1#32 <<< 31
def kSharedBufferReaderCountMask : BitVec 32 := ~~~kSharedBufferReuseClaimed

/-- `std::numeric_limits<std::size_t>::max()`. -/
def sizeMax : Nat := 2 ^ 64 - 1

/-- `sizeof(sockaddr_un::sun_path)`. -/
def sunPathSize : Nat := 108

/-- What the code throws, with its text. -/
inductive Exn
  | invalidArgument (what : String)
  | lengthError (what : String)
  | runtimeError (what : String)
  | sharedBufferError (what : String)
deriving DecidableEq, Repr

structure SharedBufferControlHeader where
  magic : Nat := kSharedBufferControlMagic
  abiVersion : Nat := kSharedBufferControlAbiVersion
  payloadSize : Nat := 0
  ipcUid : UInt64 := 0
  readerState : BitVec 32 := 0#32
  publishTimestampUs : Nat := 0
deriving DecidableEq, Repr

/-- The test in the loop of `try_acquire_shared_buffer_reader`: claimed, or the count is full. -/
def readerRefused (value : BitVec 32) : Bool :=
  (value &&& kSharedBufferReuseClaimed) != 0#32 ||
    (value &&& kSharedBufferReaderCountMask) == kSharedBufferReaderCountMask

namespace SharedBufferControlHeader
variable (control : SharedBufferControlHeader)

/-- `try_acquire_shared_buffer_reader` run without interference; `none` is the result `false`. -/
def tryAcquireReader : Option SharedBufferControlHeader :=
  if readerRefused control.readerState then none
  else some { control with readerState := control.readerState + 1#32 }

/-- `try_claim_shared_buffer_reuse`: the CAS from `0` to the claim bit. -/
def tryClaimReuse : Option SharedBufferControlHeader :=
  if control.readerState = 0#32 then
    some { control with readerState := kSharedBufferReuseClaimed }
  else none

/-- `release_shared_buffer_reader`: `fetch_sub(1)`. -/
def releaseReader : SharedBufferControlHeader :=
  { control with readerState := control.readerState - 1#32 }

/-- `release_shared_buffer_reuse_claim`: a plain store of `0`. -/
def releaseReuseClaim : SharedBufferControlHeader :=
  { control with readerState := 0#32 }

/-- The header describes a payload of `size` bytes in the protocol of this version. -/
def describes (size : Nat) : Bool :=
  control.magic == kSharedBufferControlMagic &&
    control.abiVersion == kSharedBufferControlAbiVersion && control.payloadSize == size

end SharedBufferControlHeader

/-- The grace test of `try_claim_block`: a block stamped `published` may not be reused at `now`. -/
def withinGrace (published now : Nat) : Bool :=
  published != 0 &&
    (decide (now < published) || decide (now - published < kSharedBufferGracePeriodUs))

theorem withinGrace_eq_false {published now : Nat} :
    withinGrace published now = false ↔
      published = 0 ∨ published + kSharedBufferGracePeriodUs ≤ now := by
  simp only [withinGrace, Bool.and_eq_false_iff, bne_eq_false_iff_eq, Bool.or_eq_false_iff,
    decide_eq_false_iff_not]
  omega

/-! ### The reader word as a latch -/

/-- `value` is unclaimed and counts `n` readers. -/
abbrev Readers (value : BitVec 32) (n : Nat) : Prop := Latch.Holds (w := 31) value n

theorem kSharedBufferReuseClaimed_eq : kSharedBufferReuseClaimed = Latch.claimBit 31 := by decide

theorem readerRefused_eq (value : BitVec 32) :
    readerRefused value = (Latch.claimed (w := 31) value || Latch.saturated (w := 31) value) := by
  rw [readerRefused, kSharedBufferReaderCountMask, kSharedBufferReuseClaimed_eq]; rfl

theorem readerRefused_claimed : readerRefused kSharedBufferReuseClaimed = true := by decide

namespace Readers
variable {value : BitVec 32} {n : Nat}

theorem acquire (h : Readers value n) (hr : readerRefused value = false) :
    Readers (value + 1#32) (n + 1) := by
  rw [readerRefused_eq, Bool.or_eq_false_iff] at hr
  exact h.enter hr.2

theorem unclaimed (h : Readers value n) : value &&& kSharedBufferReuseClaimed = 0#32 := by
  have := h.claimed
  rw [Latch.claimed, ← kSharedBufferReuseClaimed_eq] at this
  simpa using this

end Readers

end MemfdBuffer
