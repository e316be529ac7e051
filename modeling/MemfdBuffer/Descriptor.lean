import MemfdBuffer.Buffer

/-!
# Descriptors: how they are made and what is checked on them

The parts of `create_descriptor_with_endpoint` and `from_descriptor_with_endpoint` that compute with
values only: the descriptor of a block of the own pool, the descriptor of an imported buffer, and
the checks made on a descriptor and on the header of the mapping it leads to.
-/

namespace MemfdBuffer

/-- The owner path: `block` of the own pool, served under `ipcName`. -/
def ownerDescriptor (implSize : Nat) (pid : Int) (block : SharedBufferBlock) (ipcName : String)
    (uid : UInt64) : SharedBufferDescriptor where
  size := implSize
  elementTypeName := uint8TypeName
  sharedBufferPid := pid
  sharedBufferBlockId := block.blockId
  sharedBufferBlockSize := block.mappedSize
  sharedBufferSocketPath := ipcName
  ipcUid := uid

/-- The relay path: the identity saved in an imported buffer. -/
def relayDescriptor (buffer : SharedBuffer) : SharedBufferDescriptor where
  size := buffer.size
  elementTypeName := uint8TypeName
  sharedBufferPid := buffer.ipcPid
  sharedBufferBlockId := buffer.blockId
  sharedBufferBlockSize := buffer.mappedSize
  sharedBufferSocketPath := buffer.ipcName
  ipcUid := buffer.ipcUid

/-- The relay path's test of the header it is about to stamp. -/
def relayAccepts (buffer : SharedBuffer) (control : SharedBufferControlHeader) : Bool :=
  control.describes buffer.size && control.ipcUid == buffer.ipcUid

/-- The checks of `from_descriptor_with_endpoint` on the descriptor alone. -/
def checkDescriptor (d : SharedBufferDescriptor) : Except Exn Unit :=
  if d.elementTypeName ≠ uint8TypeName then
    .error (.runtimeError "shared-buffer descriptor element type mismatch")
  else if d.sharedBufferPid ≤ 0 ∨ d.sharedBufferSocketPath = "" ∨ d.ipcUid = 0 ∨
      d.sharedBufferBlockSize < kSharedBufferPayloadOffset ∨
      d.sharedBufferBlockSize - kSharedBufferPayloadOffset < d.size then
    .error (.runtimeError "invalid shared-buffer descriptor metadata")
  else .ok ()

/-- What `checkDescriptor` has established. -/
structure Described (d : SharedBufferDescriptor) : Prop where
  type : d.elementTypeName = uint8TypeName
  pid : 0 < d.sharedBufferPid
  path : d.sharedBufferSocketPath ≠ ""
  uid : d.ipcUid ≠ 0
  offset : kSharedBufferPayloadOffset ≤ d.sharedBufferBlockSize
  size : d.size ≤ d.sharedBufferBlockSize - kSharedBufferPayloadOffset

theorem checkDescriptor_ok {d : SharedBufferDescriptor} : checkDescriptor d = .ok () ↔ Described d := by
  unfold checkDescriptor
  split_ifs with h1 h2
  · exact ⟨fun h => (by cases h), fun h => absurd h.type h1⟩
  · refine ⟨fun h => (by cases h), fun h => ?_⟩
    rcases h2 with h2 | h2 | h2 | h2 | h2
    · exact absurd h.pid (by omega)
    · exact absurd h2 h.path
    · exact absurd h2 h.uid
    · exact absurd h.offset (by omega)
    · exact absurd h.size (by omega)
  · push Not at h1 h2
    exact ⟨fun _ => ⟨h1, h2.1, h2.2.1, h2.2.2.1, h2.2.2.2.1, h2.2.2.2.2⟩, fun _ => rfl⟩

/-- `validate_mapping`: `blockMappedSize` is the size of the mapping, `control` its header. -/
def validateMapping (control : SharedBufferControlHeader) (blockMappedSize mappedSize payloadSize : Nat)
    (expectedUid : UInt64) : Except Exn Unit :=
  if mappedSize ≠ blockMappedSize ∨ mappedSize < kSharedBufferPayloadOffset ∨
      mappedSize - kSharedBufferPayloadOffset < payloadSize then
    .error (.runtimeError "invalid shared memory mapping size")
  else if control.magic ≠ kSharedBufferControlMagic ∨
      control.abiVersion ≠ kSharedBufferControlAbiVersion then
    .error (.runtimeError "shared memory control header ABI mismatch")
  else if control.payloadSize ≠ payloadSize then
    .error (.runtimeError "shared memory control header payload size mismatch")
  else if expectedUid = 0 then
    .error (.runtimeError "shared memory descriptor contains a zero publication UID")
  else if control.ipcUid ≠ expectedUid then
    .error (.runtimeError "stale shared memory descriptor publication UID")
  else .ok ()

/-- What a successful `validate_mapping` has established. -/
theorem validateMapping_ok {control : SharedBufferControlHeader}
    {blockMappedSize mappedSize payloadSize : Nat} {uid : UInt64} :
    validateMapping control blockMappedSize mappedSize payloadSize uid = .ok () ↔
      mappedSize = blockMappedSize ∧ kSharedBufferPayloadOffset ≤ mappedSize ∧
        payloadSize ≤ mappedSize - kSharedBufferPayloadOffset ∧
        control.describes payloadSize = true ∧ uid ≠ 0 ∧ control.ipcUid = uid := by
  unfold validateMapping SharedBufferControlHeader.describes
  split_ifs with h1 h2 h3 h4 h5 <;> simp_all <;> omega

/-- A relay passes on the descriptor its buffer was imported from. -/
theorem relayDescriptor_imported {b : Nat} {d : SharedBufferDescriptor}
    (h : d.elementTypeName = uint8TypeName) :
    relayDescriptor (SharedBuffer.imported b d) = d := by
  cases d; simp only at h; subst h; rfl

/-- What was imported can be relayed. -/
theorem Described.hasIpcDescriptor {b : Nat} {d : SharedBufferDescriptor} (h : Described d) :
    (SharedBuffer.imported b d).hasIpcDescriptor = true := by
  simp [SharedBuffer.hasIpcDescriptor, SharedBuffer.imported, h.pid, h.path, h.uid]

end MemfdBuffer
