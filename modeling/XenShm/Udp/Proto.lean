import XenShm.Library.Buffer
import XenShm.Pipe.Shared

/-!
# Handshake packets

The packets of `xen_shm_udp_proto.h` are read and written in place in a buffer, by
structures laid over its beginning. The integers are in the byte order of the machine.
What the two ends of the handshake ask of the system is recorded call by call.
-/

namespace XenShm.Udp

open Library

/-- `XEN_SHM_UDP_PROTO_VERSION`, the only version the server answers. -/
def Proto.version : UInt8 := 1

/-- `XEN_SHM_UDP_PROTO_MAX_LEN`, the size of the buffer for a packet. -/
def Proto.maxLen : Nat := 40

/-- `XEN_SHM_UDP_PROTO_CLIENT_HELLO`, by which a client asks for a pipe. -/
def Proto.clientHello : UInt8 := 1

/-- `XEN_SHM_UDP_PROTO_SERVER_RESET`, by which the server refuses. -/
def Proto.serverReset : UInt8 := 2

/-- `XEN_SHM_UDP_PROTO_SERVER_GRANT`, by which the server offers a pipe. -/
def Proto.serverGrant : UInt8 := 3

/-- `XEN_SHM_UDP_PROTO_CLIENT_RESET`, by which a client gives up. -/
def Proto.clientReset : UInt8 := 4

/-- `XEN_SHM_UDP_PROTO_CLIENT_GRANT`, by which a client offers a pipe in return. -/
def Proto.clientGrant : UInt8 := 5

/-- `XEN_SHM_UDP_PROTO_GRANT_MODE_READER_OFFERER`, the reader of the pipe has offered it. -/
def Proto.readerOfferer : UInt8 := 2

/-- `sizeof(struct xen_shm_udp_proto_header)`, the size of the shortest packet. -/
def Proto.headerSize : Nat := 8

/-- `sizeof(struct xen_shm_udp_proto_client_hello)`, a header with a domain behind it. -/
def Proto.clientHelloSize : Nat := 12

/-- `sizeof(struct xen_shm_udp_proto_grant)`, a header with a grant behind it. -/
def Proto.grantSize : Nat := 18

/-- What names an offered pipe in a packet. -/
structure Grant where
  domid : BitVec 32
  ref : BitVec 32
  deriving DecidableEq, Repr

/-- The field `header->version` of the packet in the buffer. -/
def getVersion (b : Buffer) : UInt8 := b 0

/-- The field `header->message` of the packet in the buffer. -/
def getMessage (b : Buffer) : UInt8 := b 1

/-- The field `client_hello->domid` of the packet in the buffer. -/
def getHelloDomid (b : Buffer) : BitVec 32 := b.load32 8

/-- The fields `grant->domid` and `grant->grant_ref` of the packet in the buffer. -/
def getGrant (b : Buffer) : Grant := ⟨b.load32 12, b.load32 8⟩

/-- The field `grant->mode` of the packet in the buffer. -/
def getMode (b : Buffer) : UInt8 := b 16

/-- The field `grant->page_count` of the packet in the buffer. -/
def getPageCount (b : Buffer) : UInt8 := b 17

/-- The store `header->version = v` into the buffer. -/
def setVersion (b : Buffer) (v : UInt8) : Buffer := b.put 0 v

/-- The store `header->message = m` into the buffer. -/
def setMessage (b : Buffer) (m : UInt8) : Buffer := b.put 1 m

/-- The store `client_hello->domid = domid` into the buffer. -/
def setHelloDomid (b : Buffer) (domid : BitVec 32) : Buffer := b.store32 8 domid

/-- The stores to `grant->domid` and `grant->grant_ref`, as `xen_shm_pipe_offers` makes them. -/
def setGrant (b : Buffer) (g : Grant) : Buffer := (b.store32 12 g.domid).store32 8 g.ref

/-- The store `grant->mode = mode` into the buffer. -/
def setMode (b : Buffer) (mode : UInt8) : Buffer := b.put 16 mode

/-- The store `grant->page_count = count` into the buffer. -/
def setPageCount (b : Buffer) (count : UInt8) : Buffer := b.put 17 count

variable {b old : Buffer} {g : Grant} {v : UInt8} {domid : BitVec 32} {n : Nat}

/-! Each field can be read back, and keeps its value when another one is written. -/

@[simp] theorem getGrant_setGrant : getGrant (setGrant b g) = g := by
  simp only [getGrant, setGrant, Buffer.load32_store32,
    Buffer.load32_store32_of_disjoint (show 12 + 4 ≤ 8 ∨ 8 + 4 ≤ 12 by omega)]

@[simp] theorem getGrant_setMessage : getGrant (setMessage b v) = getGrant b := by
  simp only [getGrant, setMessage, Buffer.load32_put (show 1 < 12 ∨ 12 + 4 ≤ 1 by omega),
    Buffer.load32_put (show 1 < 8 ∨ 8 + 4 ≤ 1 by omega)]

@[simp] theorem getGrant_setMode : getGrant (setMode b v) = getGrant b := by
  simp only [getGrant, setMode, Buffer.load32_put (show 16 < 12 ∨ 12 + 4 ≤ 16 by omega),
    Buffer.load32_put (show 16 < 8 ∨ 8 + 4 ≤ 16 by omega)]

@[simp] theorem getGrant_setPageCount : getGrant (setPageCount b v) = getGrant b := by
  simp only [getGrant, setPageCount, Buffer.load32_put (show 17 < 12 ∨ 12 + 4 ≤ 17 by omega),
    Buffer.load32_put (show 17 < 8 ∨ 8 + 4 ≤ 17 by omega)]

@[simp] theorem getMessage_setMessage : getMessage (setMessage b v) = v := by
  simp [getMessage, setMessage]

@[simp] theorem getMessage_setMode : getMessage (setMode b v) = getMessage b := by
  simp [getMessage, setMode]

@[simp] theorem getMessage_setPageCount : getMessage (setPageCount b v) = getMessage b := by
  simp [getMessage, setPageCount]

@[simp] theorem getMessage_setHelloDomid : getMessage (setHelloDomid b domid) = getMessage b := by
  unfold getMessage setHelloDomid
  exact Buffer.store32_of_not_mem (by omega)

/-- What is read from a received packet is what was in it. -/
theorem getGrant_fill (h : Proto.grantSize ≤ n) :
    getGrant (Buffer.fill (b.dump n) old) = getGrant b := by
  unfold Proto.grantSize at h
  rw [getGrant, Buffer.load32_fill_dump (by omega), Buffer.load32_fill_dump (by omega), getGrant]

/-- `struct sockaddr_in`, the port and the address of a client. -/
structure SockAddr where
  port : BitVec 16
  addr : BitVec 32
  deriving DecidableEq, Repr

/-- A `xen_shm_pipe_p`, by the order in which the program obtained them. -/
abbrev Handle := Nat

/-- A call to the pipe library or to the system, with what came out of it. -/
inductive Effect where
  /-- A pipe is opened by `xen_shm_pipe_init`, or it cannot be opened. -/
  | pipeInit (mod : Pipe.Mod) (pipe : Option Handle)
  /-- A pipe is offered by `xen_shm_pipe_offers`, with the grant that was returned. -/
  | pipeOffers (pipe : Handle) (pageCount : UInt8) (domid : BitVec 32) (grant : Option Grant)
  /-- A pipe is connected by `xen_shm_pipe_connect`, or the call fails. -/
  | pipeConnect (pipe : Handle) (pageCount : UInt8) (grant : Grant) (ok : Bool)
  /-- A pipe is freed by `xen_shm_pipe_free`. -/
  | pipeFree (pipe : Handle)
  /-- `pthread_create` of a child with these two pipes. -/
  | threadCreate (receiveFd : Option Handle) (sendFd : Handle) (ok : Bool)
  /-- A datagram is sent by `sendto`. -/
  | sendto (dest : SockAddr) (datagram : List UInt8)
  /-- `sendto`, when it reports that the datagram was not sent. -/
  | sendtoFailed (dest : SockAddr) (datagram : List UInt8)
  /-- A domain is asked for by `xen_shm_pipe_getdomid`. -/
  | getdomid (pipe : Handle) (domid : Option (BitVec 32))
  /-- A socket is opened by `socket`, or it cannot be opened. -/
  | socket (ok : Bool)
  /-- The socket is shut down by `shutdown`. -/
  | shutdown
  /-- The event loop is told to end. -/
  | clean
  deriving DecidableEq, Repr

end XenShm.Udp
