import XenShm.Library.Ring
import Mathlib.Data.BitVec

/-!
# The shared area of a pipe

Both ends of a pipe map the same pages. The area starts with four 32-bit words,
the flags of each side and the two indices, and the ring of bytes follows. The
ring content is a function of the offset from `buffer`; nothing here restricts
the offsets a program may touch.
-/

namespace XenShm.Pipe

/-- The number of bytes in one shared page. -/
def pageSize : Nat := 4096

/-- First check interval of a transfer whose peer was asleep at entry. -/
def fastCheckInterval : Nat := 128

/-- Number of looks at the peer in one round of the ring. -/
def waitCheckPerRound : Nat := 4

/-- Turns of a waiting loop between two probes for a broken pipe. -/
def waitLoopLimit : Nat := 10000

/-- Turns a waiting loop spends on an active peer before it may sleep. -/
def waitLoopActiveMax : Nat := 10000

/-- `sizeof(struct xen_shm_pipe_shared)`: the four words before the ring. -/
def sharedHeaderSize : Nat := 16

/-- The end of the pipe a handle drives, and so the index and flag word it owns. -/
inductive Mod where
  | write
  | read
  deriving DecidableEq, Repr

/-- The end at the other side of the pipe. -/
def Mod.peer : Mod → Mod
  | .write => .read
  | .read => .write

@[simp] theorem Mod.peer_peer (m : Mod) : m.peer.peer = m := by cases m <;> rfl

@[simp] theorem Mod.peer_ne (m : Mod) : m.peer ≠ m := by cases m <;> decide

/-- Which end shares its memory with the other. -/
inductive Conv where
  | writerOffers
  | readerOffers
  deriving DecidableEq, Repr

/-- `__xen_shm_pipe_is_offerer`, by the two fields of the handle. -/
def isOfferer (m : Mod) (conv : Conv) : Bool :=
  (m == .read && conv == .readerOffers) || (m == .write && conv == .writerOffers)

/-- A word of flags, as the two ends load and store it. -/
abbrev Flags := BitVec 32

/-- The bits that are used in the flag words. -/
inductive Flag where
  | opened
  | closed
  | waiting
  | sleeping
  | active
  deriving DecidableEq, Repr

/-- The value of the `XSHMP_` constant of the bit. -/
def Flag.mask : Flag → Flags
  | .opened => 0x00000001#32
  | .closed => 0x00000002#32
  | .waiting => 0x00000004#32
  | .sleeping => 0x00000008#32
  | .active => 0x00000010#32

/-- The expression `f & b` as a condition. -/
def hasFlag (f : Flags) (b : Flag) : Bool := f &&& b.mask != 0#32

/-- The value that the statement `f |= b` stores. -/
def setFlag (f : Flags) (b : Flag) : Flags := f ||| b.mask

/-- The value that the statement `f &= ~b` stores. -/
def clearFlag (f : Flags) (b : Flag) : Flags := f &&& ~~~b.mask

/-- The number of the bit in the flag word. -/
private def Flag.bit : Flag → Nat
  | .opened => 0
  | .closed => 1
  | .waiting => 2
  | .sleeping => 3
  | .active => 4

/-- Each constant is one bit. -/
private theorem Flag.mask_eq (b : Flag) : b.mask = BitVec.twoPow 32 b.bit := by
  cases b <;> decide

/-- A flag is tested by its bit. -/
private theorem hasFlag_eq (f : Flags) (b : Flag) : hasFlag f b = f.getLsbD b.bit := by
  rw [hasFlag, Flag.mask_eq, BitVec.and_twoPow]
  cases hf : f.getLsbD b.bit
  · simp
  · cases b <;> simp [Flag.bit] <;> decide

/-- The constants of two flags have no bit in common. -/
private theorem Flag.getLsbD_mask (a b : Flag) : a.mask.getLsbD b.bit = (a == b) := by
  cases a <;> cases b <;> decide

@[simp] theorem hasFlag_zero (b : Flag) : hasFlag 0#32 b = false := by
  cases b <;> decide

@[simp] theorem hasFlag_setFlag (f : Flags) (a b : Flag) :
    hasFlag (setFlag f a) b = (a == b || hasFlag f b) := by
  simp only [hasFlag_eq, setFlag, BitVec.getLsbD_or, Flag.getLsbD_mask, Bool.or_comm]

@[simp] theorem hasFlag_clearFlag (f : Flags) (a b : Flag) :
    hasFlag (clearFlag f a) b = (a != b && hasFlag f b) := by
  have hb : b.bit < 32 := by cases b <;> decide
  simp only [hasFlag_eq, clearFlag, BitVec.getLsbD_and, BitVec.getLsbD_not, Flag.getLsbD_mask, hb,
    decide_true, Bool.true_and, Bool.and_comm, bne]

/-- `struct xen_shm_pipe_shared`, which lies at the beginning of the mapped area. -/
structure Shared where
  /-- The flags that the writer owns. -/
  writerFlags : Flags
  /-- The flags that the reader owns. -/
  readerFlags : Flags
  /-- Offset of the next byte to write. -/
  write : Nat
  /-- Offset of the next byte to read. -/
  read : Nat
  /-- The bytes of the ring, from `buffer` on. -/
  buffer : Nat → UInt8

namespace Shared

/-- The flag word of one end; `__xen_shm_pipe_get_flags` gives its own for `m` and the
other one for `m.peer`. -/
def flags (s : Shared) : Mod → Flags
  | .write => s.writerFlags
  | .read => s.readerFlags

/-- Store the flag word of one end. -/
def setFlags (s : Shared) (m : Mod) (f : Flags) : Shared :=
  match m with
  | .write => { s with writerFlags := f }
  | .read => { s with readerFlags := f }

/-- The index that one end advances. -/
def index (s : Shared) : Mod → Nat
  | .write => s.write
  | .read => s.read

/-- Store the index of one end. -/
def setIndex (s : Shared) (m : Mod) (i : Nat) : Shared :=
  match m with
  | .write => { s with write := i }
  | .read => { s with read := i }

variable (s : Shared) (m m' : Mod) (f : Flags) (i : Nat)

@[simp] theorem flags_setFlags_self : (s.setFlags m f).flags m = f := by cases m <;> rfl

@[simp] theorem flags_setFlags_peer : (s.setFlags m f).flags m.peer = s.flags m.peer := by
  cases m <;> rfl

@[simp] theorem flags_setFlags_of_peer : (s.setFlags m.peer f).flags m = s.flags m := by
  cases m <;> rfl

@[simp] theorem index_setFlags : (s.setFlags m f).index m' = s.index m' := by
  cases m <;> cases m' <;> rfl

@[simp] theorem buffer_setFlags : (s.setFlags m f).buffer = s.buffer := by cases m <;> rfl

@[simp] theorem index_setIndex_self : (s.setIndex m i).index m = i := by cases m <;> rfl

@[simp] theorem index_setIndex_peer : (s.setIndex m i).index m.peer = s.index m.peer := by
  cases m <;> rfl

@[simp] theorem flags_setIndex : (s.setIndex m i).flags m' = s.flags m' := by
  cases m <;> cases m' <;> rfl

@[simp] theorem buffer_setIndex : (s.setIndex m i).buffer = s.buffer := by cases m <;> rfl

end Shared

/-- The sizes and addresses fixed when a pipe is offered and connected. Each end maps the
pages at an address of its own. -/
structure Geometry where
  /-- The number of pages that are shared with the user. -/
  pageCount : Nat
  /-- There is a page, for the kernel refuses an empty area. -/
  pageCount_pos : 1 ≤ pageCount
  /-- The address `mmap` returned to each end. -/
  shared : Mod → Nat
  /-- Of the page boundary that `mmap` returns, only the position inside a 64-bit word matters. -/
  shared_aligned : ∀ m, shared m % 8 = 0

namespace Geometry

variable (g : Geometry)

/-- The field `buffer_size`, the number of slots in the ring. -/
def bufferSize : Nat := g.pageCount * pageSize - sharedHeaderSize

/-- The field `wait_check_interval`, how many bytes go between two looks at the peer. -/
def waitCheckInterval : Nat := g.bufferSize / waitCheckPerRound

/-- The address of a ring offset in the mapping of one end. -/
def ringAddr (m : Mod) (pos : Nat) : Nat := g.shared m + sharedHeaderSize + pos

/-- The ring has all slots of its first page behind the flags and indices. -/
theorem bufferSize_ge : 4080 ≤ g.bufferSize := by
  have h := g.pageCount_pos
  simp only [bufferSize, pageSize, sharedHeaderSize]
  omega

/-- The ring has slots. -/
theorem bufferSize_pos : 0 < g.bufferSize := by
  have := g.bufferSize_ge
  omega

/-- Between two looks at the peer many bytes can be moved. -/
theorem waitCheckInterval_ge : 1020 ≤ g.waitCheckInterval := by
  have h := g.bufferSize_ge
  simp only [waitCheckInterval, waitCheckPerRound]
  omega

/-- Ring offsets and ring addresses have the same position inside a 64-bit word. -/
theorem ringAddr_mod_eight (m : Mod) (pos : Nat) : g.ringAddr m pos % 8 = pos % 8 := by
  have h := g.shared_aligned m
  simp only [ringAddr, sharedHeaderSize]
  omega

/-- A pipe of one page, mapped at the same address by both ends. -/
def onePage : Geometry := ⟨1, le_rfl, fun _ => pageSize, fun _ => by decide⟩

end Geometry

/-- The indices and flag words `xen_shm_pipe_offers` leaves behind, around whatever bytes the
pages contained. -/
def Shared.offered (conv : Conv) (buffer : Nat → UInt8) : Shared :=
  let zeroed : Shared := ⟨0#32, 0#32, 0, 0, buffer⟩
  match conv with
  | .writerOffers => zeroed.setFlags .write (setFlag 0#32 .opened)
  | .readerOffers => zeroed.setFlags .read (setFlag 0#32 .opened)

end XenShm.Pipe
