import XenShm.Pipe.Programs

/-!
# The test programs of the pipe

`pipe_writer.c` sends its standard input through a pipe and `pipe_reader.c` reads as much of it as
it is told to. Both count the bytes and add up a checksum. `pipe_perf.c` does the same
with whole buffers and without a checksum. A signal that interrupts the programs is not modelled.
-/

namespace XenShm.Pipe

open XenShm.Library

/-- `BUFFER_SIZE` of the two programs that test a pipe. -/
def testBufferSize : Nat := 5000

/-- The loop over the bytes of a buffer that adds to `checksum`. -/
def addChecksum (checksum : UInt32) (bytes : List UInt8) : UInt32 :=
  bytes.foldl (fun c b => c + (b.toUInt32 + 10) * (b.toUInt32 + 20)) checksum

/-- What `read` on the standard input returns to the writer. -/
inductive StdinRead where
  /-- Some bytes of the standard input. -/
  | bytes (data : List UInt8)
  /-- The end of the standard input, or an error. -/
  | ended

/-- The bytes that a read stores into the buffer. -/
def StdinRead.data : StdinRead → List UInt8
  | .bytes data => data
  | .ended => []

/-- The bytes that were read from the standard input. -/
def StdinRead.stream (reads : List StdinRead) : List UInt8 :=
  reads.flatMap StdinRead.data

/-- The local variables of `main` of `pipe_writer.c` behind the connection. -/
structure PipeWriter where
  /-- The address of `buffer` in the memory of the program. -/
  buffer : Nat
  mem : Nat → UInt8
  msgLen : Nat
  offset : Nat
  /-- The counter `checksum`, which the program prints at its end. -/
  checksum : UInt32
  /-- The counter `sent_bytes`, which the program prints at its end. -/
  sentBytes : UInt64
  /-- Whether `clean` was called, behind which nothing is done with the pipe. -/
  cleaning : Bool

/-- The local variables of `main` of `pipe_reader.c` behind the connection. -/
structure PipeReader where
  /-- The address of `buffer` in the memory of the program. -/
  buffer : Nat
  mem : Nat → UInt8
  /-- The number `to_read`, which the program is told on its standard input and counts down. -/
  toRead : UInt32
  /-- The counter `checksum`, which the program prints at its end. -/
  checksum : UInt32
  /-- The counter `rcv_bytes`, which the program prints at its end. -/
  rcvBytes : UInt64
  /-- Whether the text "End of file" was printed. -/
  endOfFile : Bool
  /-- Whether `clean` was called, behind which nothing is done with the pipe. -/
  cleaning : Bool

namespace PipeWriter

/-- The writer before its first loop, with its counters at 0. -/
def start (buffer : Nat) (mem : Nat → UInt8) : PipeWriter := ⟨buffer, mem, 0, 0, 0, 0, false⟩

/-- What is in its buffer and was not sent yet. -/
def unsent (p : PipeWriter) : List UInt8 :=
  segment p.mem (p.buffer + p.offset) (p.msgLen - p.offset)

/-- The call that the writer makes next, if it makes one. -/
def next (p : PipeWriter) : Option Request :=
  if p.cleaning then some .free
  else if p.offset = p.msgLen then none
  else some (.transfer false (p.buffer + p.offset) (p.msgLen - p.offset) p.mem)

/-- What it does with the value of `xen_shm_pipe_write`. -/
def sees (p : PipeWriter) : Channel.Event UInt8 → PipeWriter
  | .putReturned value =>
    if value ≤ 0 then { p with cleaning := true }
    else { p with
      sentBytes := p.sentBytes + UInt64.ofNat value.toNat
      checksum := addChecksum p.checksum (segment p.mem (p.buffer + p.offset) value.toNat)
      offset := p.offset + value.toNat }
  | _ => p

/-- The call `read(0, buffer, BUFFER_SIZE)`, with what it has returned. -/
def told (p : PipeWriter) : StdinRead → Option PipeWriter
  | .bytes data =>
    if p.cleaning = false ∧ p.offset = p.msgLen ∧ data ≠ [] ∧ data.length ≤ testBufferSize then
      some { p with mem := overwrite p.mem p.buffer data, msgLen := data.length, offset := 0 }
    else none
  | .ended =>
    if p.cleaning = false ∧ p.offset = p.msgLen then some { p with cleaning := true } else none

/-- The program of the writer. -/
def program : Program PipeWriter StdinRead := ⟨next, sees, told⟩

end PipeWriter

namespace PipeReader

/-- The reader before its first loop, with its counters at 0. -/
def start (buffer : Nat) (mem : Nat → UInt8) : PipeReader := ⟨buffer, mem, 0, 0, 0, false, false⟩

/-- The call that the reader makes next, if it makes one. -/
def next (p : PipeReader) : Option Request :=
  if p.cleaning then some .free
  else if p.toRead = 0 then none
  else
    let nbytes := if testBufferSize - 1 > p.toRead.toNat then p.toRead.toNat else testBufferSize - 1
    some (.transfer false p.buffer nbytes p.mem)

/-- What it does with the value of `xen_shm_pipe_read`, which has stored `got` in the buffer. -/
def sees (p : PipeReader) : Channel.Event UInt8 → PipeReader
  | .getReturned value got =>
    let p := { p with mem := overwrite p.mem p.buffer got }
    if value = 0 then { p with endOfFile := true, cleaning := true }
    else if value < 0 then { p with cleaning := true }
    else { p with
      toRead := p.toRead - UInt32.ofNat value.toNat
      rcvBytes := p.rcvBytes + UInt64.ofNat value.toNat
      checksum := addChecksum p.checksum (segment p.mem p.buffer value.toNat) }
  | _ => p

/-- The user enters how many bytes to read. -/
def told (p : PipeReader) (toRead : UInt32) : Option PipeReader :=
  if p.cleaning = false ∧ p.toRead = 0 then some { p with toRead := toRead } else none

/-- The program of the reader. -/
def program : Program PipeReader UInt32 := ⟨next, sees, told⟩

end PipeReader

/-- What a program has counted of a stream. -/
def Counted (checksum : UInt32) (bytes : UInt64) (stream : List UInt8) : Prop :=
  checksum = addChecksum 0 stream ∧ bytes = UInt64.ofNat stream.length

/-- The counters go on with the next bytes of the stream. -/
private theorem Counted.append {checksum : UInt32} {bytes : UInt64} {stream : List UInt8}
    (h : Counted checksum bytes stream) (more : List UInt8) :
    Counted (addChecksum checksum more) (bytes + UInt64.ofNat more.length) (stream ++ more) := by
  obtain ⟨rfl, rfl⟩ := h
  refine ⟨?_, ?_⟩
  · rw [addChecksum, addChecksum, addChecksum, List.foldl_append]
  · rw [List.length_append, UInt64.ofNat_add]

/-- The writer has counted what its calls were accepted for. This is what it was told, apart from
what is left in its buffer. -/
structure PipeWriter.Sound (p : PipeWriter) (reads : List StdinRead) (inCall : Bool)
    (x : Account UInt8) : Prop where
  /-- The counters are those of the bytes that were accepted. -/
  counted : Counted p.checksum p.sentBytes x.accepted
  /-- Nothing of its standard input is lost. -/
  fromStdin : x.accepted ++ p.unsent = StdinRead.stream reads
  /-- The call in progress is on the rest of the message. -/
  given : inCall = true → x.given = p.unsent ∧ x.given ≠ []
  /-- The offset does not pass the end of the message. -/
  offset : p.offset ≤ p.msgLen

/-- The reader has counted what was delivered to it. -/
structure PipeReader.Sound (p : PipeReader) (inCall : Bool) (x : Account UInt8) : Prop where
  /-- The counters are those of the bytes that were delivered. -/
  counted : Counted p.checksum p.rcvBytes x.delivered
  /-- The call in progress is on some bytes. -/
  asked : inCall = true → x.asked ≠ 0
  /-- The end is told only when there was one. -/
  endOfFile : p.endOfFile = true → x.ended = true

/-- Sending a part of the message leaves the rest of it. -/
theorem PipeWriter.unsent_take (p : PipeWriter) {n : Nat} (hn : n ≤ p.msgLen - p.offset) :
    p.unsent.take n = segment p.mem (p.buffer + p.offset) n ∧
      p.unsent.drop n =
        segment p.mem (p.buffer + (p.offset + n)) (p.msgLen - (p.offset + n)) := by
  have hsplit : p.msgLen - p.offset = n + (p.msgLen - (p.offset + n)) := by omega
  have hwhole : p.unsent = segment p.mem (p.buffer + p.offset) n ++
      segment p.mem (p.buffer + (p.offset + n)) (p.msgLen - (p.offset + n)) := by
    rw [unsent, hsplit, segment_add, Nat.add_assoc]
  rw [hwhole]
  exact ⟨List.take_left' (length_segment ..), List.drop_left' (length_segment ..)⟩

/-- The writer counts what its calls were accepted for, whatever they return. -/
theorem PipeWriter.keeps : PipeWriter.program.Keeps .write PipeWriter.Sound := by
  refine ⟨fun p reads x all buf nbytes mem h hnext => ?_, fun p reads x value got h hallowed => ?_,
    fun p reads x h => h, fun p q reads x k h htold => ?_, fun p reads b x y h hsame => ?_⟩
  · simp only [program, next] at hnext
    split_ifs at hnext with hcleaning hoffset <;> cases hnext
    have hle := h.offset
    refine ⟨h.counted, h.fromStdin, fun _ => ⟨rfl, fun hnil => ?_⟩, h.offset⟩
    have hlen := congrArg List.length hnil
    simp only [Mod.called, Account.after, length_segment, List.length_nil] at hlen
    omega
  · obtain ⟨hgiven, hsome⟩ := h.given rfl
    have hle := h.offset
    simp only [Mod.returned, Account.Allows] at hallowed
    simp only [program, sees, Mod.returned, Account.after]
    split_ifs with hvalue
    · have hzero : value.toNat = 0 := by omega
      rw [hzero, List.take_zero, List.append_nil]
      exact ⟨h.counted, h.fromStdin, fun hb => (by cases hb), h.offset⟩
    · obtain ⟨-, hlen, -⟩ := hallowed.resolve_left (by omega)
      rw [hgiven, unsent, length_segment] at hlen
      obtain ⟨htake, hdrop⟩ := p.unsent_take hlen
      rw [hgiven]
      refine ⟨?_, ?_, fun hb => (by cases hb), by simp only []; omega⟩
      · rw [htake]
        simpa using h.counted.append (segment p.mem (p.buffer + p.offset) value.toNat)
      · -- what was sent and what is left now are what was left before
        change x.accepted ++ p.unsent.take value.toNat ++ segment p.mem
          (p.buffer + (p.offset + value.toNat)) (p.msgLen - (p.offset + value.toNat)) = _
        rw [← hdrop, List.append_assoc, List.take_append_drop, h.fromStdin]
  · have hstream : StdinRead.stream (reads ++ [k]) = StdinRead.stream reads ++ k.data := by
      simp [StdinRead.stream]
    cases k <;> simp only [program, told] at htold <;> split_ifs at htold with hgo <;> cases htold
    · have hempty : p.unsent = [] := by rw [unsent, hgo.2.1, Nat.sub_self, segment_zero]
      refine ⟨h.counted, ?_, fun hb => (by cases hb), Nat.zero_le _⟩
      rw [hstream, ← h.fromStdin, hempty, List.append_nil]
      exact congrArg (x.accepted ++ ·) (segment_overwrite p.mem p.buffer _)
    · refine ⟨h.counted, ?_, fun hb => (by cases hb), h.offset⟩
      rw [hstream, ← h.fromStdin]
      exact (List.append_nil _).symm
  · obtain ⟨hgiven, haccepted⟩ := hsame
    exact ⟨by rw [haccepted]; exact h.counted, by rw [haccepted]; exact h.fromStdin,
      by rw [hgiven]; exact h.given, h.offset⟩

/-- The reader counts what was delivered to it, whatever its calls return. -/
theorem PipeReader.keeps :
    PipeReader.program.Keeps .read fun p _ inCall x => PipeReader.Sound p inCall x := by
  refine ⟨fun p _ x all buf nbytes mem h hnext => ?_, fun p _ x value got h hallowed => ?_,
    fun p _ x h => h, fun p q _ x k h htold => ?_, fun p _ b x y h hsame => ?_⟩
  · simp only [program, next] at hnext
    split_ifs at hnext with hcleaning hread <;> cases hnext
    · refine ⟨h.counted, fun _ hzero => hread ?_, h.endOfFile⟩
      exact UInt32.toNat_inj.mp hzero
    · exact ⟨h.counted, fun _ => (by simp [Mod.called, Account.after, testBufferSize]), h.endOfFile⟩
  · simp only [Mod.returned, Account.Allows] at hallowed
    simp only [program, sees, Mod.returned, Account.after]
    split_ifs with hzero hneg
    · have hgot : got = [] := by
        rcases hallowed with ⟨hv, -⟩ | ⟨hv, -⟩
        · omega
        · exact List.length_eq_zero_iff.mp (by omega)
      refine ⟨by simpa [hgot] using h.counted, fun hb => (by cases hb), fun _ => ?_⟩
      simp [hzero, h.asked rfl]
    · have hgot : got = [] := by
        rcases hallowed with ⟨-, hg⟩ | ⟨hv, -⟩
        · exact hg
        · omega
      refine ⟨by simpa [hgot] using h.counted, fun hb => (by cases hb), fun he => ?_⟩
      simp [h.endOfFile he]
    · have hlen : value.toNat = got.length := by
        rcases hallowed with ⟨hv, -⟩ | ⟨hv, -⟩ <;> omega
      refine ⟨?_, fun hb => (by cases hb), fun he => ?_⟩
      · rw [hlen, segment_overwrite]
        exact h.counted.append got
      · simp [h.endOfFile he]
  · simp only [program, told] at htold
    split_ifs at htold
    cases htold
    exact ⟨h.counted, fun hb => (by cases hb), h.endOfFile⟩
  · obtain ⟨hasked, hdelivered, hended⟩ := hsame
    exact ⟨by rw [hdelivered]; exact h.counted, by rw [hasked]; exact h.asked,
      by rw [hended]; exact h.endOfFile⟩

/-- What the two programs can rely on, when the writer has read this from its standard input and the
calls on the pipe have given this account. -/
structure ChecksumsAgree (stdin : List UInt8) (x : Account UInt8)
    (d : Driven PipeWriter PipeReader) : Prop where
  /-- The writer has counted the bytes that its calls have returned for. -/
  sent : Counted d.writer.checksum d.writer.sentBytes x.accepted
  /-- The accepted bytes come from the standard input, and the rest of it is in the buffer. -/
  fromStdin : x.accepted ++ d.writer.unsent = stdin
  /-- The reader has counted the bytes that its calls have returned. -/
  received : Counted d.reader.checksum d.reader.rcvBytes x.delivered
  /-- The delivered bytes are the first ones of the standard input. A write in progress may be ahead
  of what it will return. -/
  prefixes : x.delivered <+: stdin ∧ (d.sys.writer.busy = false → x.delivered <+: x.accepted)
  /-- When the reader prints "End of file", the writer has freed its handle, everything that it has
  sent was received, and both print the same numbers. -/
  endOfFile : d.reader.endOfFile = true → d.sys.writer.closing = true ∧
    x.delivered = x.accepted ∧ d.reader.checksum = d.writer.checksum ∧
    d.reader.rcvBytes = d.writer.sentBytes

/-- The test programs before their loops. The writer offers. -/
def testStart (buffer memReader memWriter : Nat → UInt8) (bufReader bufWriter : Nat) :
    Driven PipeWriter PipeReader :=
  ⟨.offered .writerOffers buffer memReader memWriter, .start bufWriter memWriter,
    .start bufReader memReader⟩

/-- A run of the two programs, and what is seen of the calls on the pipe. -/
abbrev observeTest (g : Geometry) :=
  observe (Driven.step PipeWriter.program PipeReader.program g)
    (Driven.see PipeWriter.program PipeReader.program)

/-- In every run of the two programs, with any standard input, any requests and any interleaving,
the checksums agree. -/
theorem checksums_agree {g : Geometry} {buffer memReader memWriter : Nat → UInt8}
    {bufReader bufWriter : Nat} {inputs : List (Driven.Input StdinRead UInt32)}
    {d : Driven PipeWriter PipeReader} {es : List (Channel.Event UInt8)}
    (h : observeTest g (testStart buffer memReader memWriter bufReader bufWriter) inputs =
      some (d, es)) :
    ChecksumsAgree (StdinRead.stream (inputs.filterMap Driven.Input.toWriter))
      (es.foldl Account.after .start) d := by
  obtain ⟨hsys, hwriter, hreader⟩ := Driven.accounted PipeWriter.keeps PipeReader.keeps
    ⟨⟨rfl, rfl⟩, rfl, fun hb => (by cases hb), le_rfl⟩
    ⟨⟨rfl, rfl⟩, fun hb => (by cases hb), fun he => (by cases he)⟩ h
  have hdelivers := hsys.delivers
  set x := es.foldl Account.after .start
  refine ⟨hwriter.counted, hwriter.fromStdin, hreader.counted, ?_, fun he => ?_⟩
  · obtain ⟨n, hprefix, hnone⟩ := hdelivers.inOrder
    have hidle : d.sys.writer.busy = false → x.delivered <+: x.accepted := by
      intro hidle
      rwa [hnone hidle, List.take_zero, List.append_nil] at hprefix
    refine ⟨?_, hidle⟩
    rw [← hwriter.fromStdin]
    cases hbusy : d.sys.writer.busy with
    | false => exact (hidle hbusy).trans (List.prefix_append ..)
    | true =>
      rw [(hwriter.given hbusy).1] at hprefix
      exact hprefix.trans ((List.prefix_append_right_inj _).mpr (List.take_prefix ..))
  · obtain ⟨hclosing, hsame⟩ := hdelivers.ended (hreader.endOfFile he)
    have hcounted := hreader.counted
    rw [hsame] at hcounted
    exact ⟨hclosing, hsame, hcounted.1.trans hwriter.counted.1.symm,
      hcounted.2.trans hwriter.counted.2.symm⟩

/-- Two bytes from the standard input to a reader that asks for four. -/
private def twoBytesThrough : List (Driven.Input StdinRead UInt32) :=
  [.tick .read, .tick .read, .tellWriter (.bytes [65, 66]), .call .write] ++
  List.replicate 22 (.tick .write) ++ [.tellWriter .ended, .call .write] ++
  List.replicate 3 (.tick .write) ++ [.tellReader 4, .call .read] ++
  List.replicate 21 (.tick .read) ++ [.call .read] ++ List.replicate 12 (.tick .read)

/-- Two bytes of the standard input reach the reader, who is told the end, and both programs have
the same checksum. -/
theorem checksums_agree_twoBytes : ∃ x : Account UInt8, ∃ d : Driven PipeWriter PipeReader,
    x.delivered = [65, 66] ∧ d.reader.endOfFile = true ∧ d.reader.rcvBytes = 2 ∧
      d.reader.checksum = 75 * 85 + 76 * 86 ∧ ChecksumsAgree [65, 66] x d := by
  have hrun : (observeTest .onePage (testStart (fun _ => 0) (fun _ => 0) (fun _ => 0) 0 0)
      twoBytesThrough).any (fun r => (r.2.foldl Account.after .start).delivered = [65, 66] ∧
        r.1.reader.endOfFile = true ∧ r.1.reader.rcvBytes = 2 ∧
        r.1.reader.checksum = 75 * 85 + 76 * 86) = true := by decide +kernel
  obtain ⟨⟨d, es⟩, hd, hp⟩ := (Option.any_eq_true _ _).mp hrun
  obtain ⟨hgot, heof, hbytes, hsum⟩ := of_decide_eq_true hp
  exact ⟨es.foldl Account.after .start, d, hgot, heof, hbytes, hsum, checksums_agree hd⟩

end XenShm.Pipe
