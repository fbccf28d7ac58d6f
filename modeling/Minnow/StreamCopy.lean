import Minnow.EventLoop
import Minnow.ByteStream

namespace Minnow

/-!
# Copying streams both ways

`bidirectional_stream_copy` copies its input to a socket and what comes from the socket to its
output, each through a byte stream, with two rules of an event loop for each way.
-/

/-- The standard input and output of the program, and the socket. -/
inductive CopyFd where
  | input
  | output
  | socket
deriving DecidableEq, Repr

/-- The two ways. -/
inductive Way where
  | outbound
  | inbound
deriving DecidableEq, Repr

namespace Way

/-- The descriptor that a way reads from. -/
def source : Way → CopyFd
  | outbound => .input
  | inbound => .socket

/-- The descriptor that a way writes to. -/
def sink : Way → CopyFd
  | outbound => .socket
  | inbound => .output

end Way

/-- The streams `outbound` and `inbound`, and the flags `outbound_shutdown` and
    `inbound_shutdown`. -/
structure CopyVars where
  stream : Way → ByteStream
  shutdown : Way → Bool := fun _ => false

/-- What runs over the three descriptors and the two streams. -/
abbrev CopyM := SysM CopyFd CopyVars

namespace StreamCopy

/-- A megabyte for each way. -/
def bufferSize : UInt64 := 1048576

/-- Change the stream of a way. -/
def onStream (way : Way) (f : ByteStream → ByteStream) (w : World CopyFd CopyVars) :
    World CopyFd CopyVars :=
  w.setVars { w.vars with
    stream := Function.update w.vars.stream way (f (w.vars.stream way)) }

/-- Both streams have an error. -/
def setErrors (w : World CopyFd CopyVars) : World CopyFd CopyVars :=
  onStream .inbound ByteStream.setError (onStream .outbound ByteStream.setError w)

/-- The way's sink has been shut down. -/
def setShutdown (way : Way) (w : World CopyFd CopyVars) : World CopyFd CopyVars :=
  w.setVars { w.vars with shutdown := Function.update w.vars.shutdown way true }

/-! ### The rules -/

variable (kernel : Kernel CopyFd)

/-- Read from the source into the stream, as much as there is room for. -/
def readCallback (way : Way) : CopyM PUnit := do
  let data ← FileDescriptor.read kernel way.source
    ((← get).vars.stream way).availableCapacity.toNat
  modify (onStream way (·.push data))
  if ((← get).fds way.source).eof then modify (onStream way ByteStream.close)

/-- A way reads while neither stream has an error, there is room, and its own is not closed. -/
def readInterest (way : Way) (w : World CopyFd CopyVars) : Bool :=
  !(w.vars.stream .outbound).hasError && !(w.vars.stream .inbound).hasError &&
    (w.vars.stream way).availableCapacity > 0 && !(w.vars.stream way).isClosed

/-- Write from the stream to the sink; `finish` follows the last byte. -/
def writeCallback (way : Way) (finish : CopyM PUnit) : CopyM PUnit := do
  let stream := (← get).vars.stream way
  if stream.bytesBuffered ≠ 0 then
    let written ← FileDescriptor.write kernel way.sink [stream.peek]
    modify (onStream way (·.pop (UInt64.ofNat written)))
  if ((← get).vars.stream way).isFinished then
    finish
    modify (setShutdown way)

/-- A way writes while it holds bytes, or has an end its sink has not been told. -/
def writeInterest (way : Way) (w : World CopyFd CopyVars) : Bool :=
  (w.vars.stream way).bytesBuffered ≠ 0 ||
    ((w.vars.stream way).isFinished && !w.vars.shutdown way)

/-- A rule that reads into the stream of a way. -/
def readRule (way : Way) (id : ℕ) : FDRule CopyFd CopyVars where
  id
  categoryId := id
  interest := readInterest way
  callback := readCallback kernel way
  fd := way.source
  direction := .In
  cancel := modify (onStream way ByteStream.close)
  error := modify setErrors

/-- A rule that writes from the stream of a way. -/
def writeRule (way : Way) (finish : CopyM PUnit) (id : ℕ) : FDRule CopyFd CopyVars where
  id
  categoryId := id
  interest := writeInterest way
  callback := writeCallback kernel way finish
  fd := way.sink
  direction := .Out
  cancel := modify (onStream way ByteStream.close)
  error := modify setErrors

/-- Rule 1: read from stdin into outbound byte stream. -/
def readStdin : FDRule CopyFd CopyVars := readRule kernel .outbound 0

/-- Rule 2: read from outbound byte stream into socket. -/
def writeSocket : FDRule CopyFd CopyVars :=
  writeRule kernel .outbound (FileDescriptor.shutdown kernel .socket .SHUT_WR) 1

/-- Rule 3: read from socket into inbound byte stream. -/
def readSocket : FDRule CopyFd CopyVars := readRule kernel .inbound 2

/-- Rule 4: read from inbound byte stream into stdout. -/
def writeStdout : FDRule CopyFd CopyVars :=
  writeRule kernel .inbound (FileDescriptor.close kernel .output) 3

/-- The loop with its rules. -/
def eventloop : Except StdException (EventLoop CopyFd CopyVars) := do
  let loop : EventLoop CopyFd CopyVars := {}
  let (loop, _) ← loop.addNamedRule "read from stdin into outbound byte stream" (readStdin kernel)
  let (loop, _) ← loop.addNamedRule "read from outbound byte stream into socket"
    (writeSocket kernel)
  let (loop, _) ← loop.addNamedRule "read from socket into inbound byte stream" (readSocket kernel)
  let (loop, _) ← loop.addNamedRule "read from inbound byte stream into stdout"
    (writeStdout kernel)
  return loop

/-- The loop for so many turns at most; has it been left? -/
def turns : ℕ → EventLoop CopyFd CopyVars → CopyM (Bool × EventLoop CopyFd CopyVars)
  | 0, loop => return (false, loop)
  | n + 1, loop => do
    let (result, loop) ← loop.waitNextEvent kernel (-1)
    if result = .Exit then return (true, loop) else turns n loop

/-- Copying for so many turns at most; has it returned?  The socket is the caller's. -/
def bidirectionalStreamCopy (n : ℕ) : CopyM Bool := do
  FileDescriptor.new kernel .input
  FileDescriptor.new kernel .output
  let outbound ← SysM.attempt (ByteStream.new bufferSize)
  let inbound ← SysM.attempt (ByteStream.new bufferSize)
  modify fun w => w.setVars { stream := fun | .outbound => outbound | .inbound => inbound }
  FileDescriptor.setBlocking kernel .socket false
  FileDescriptor.setBlocking kernel .input false
  FileDescriptor.setBlocking kernel .output false
  let loop ← SysM.attempt (eventloop kernel)
  let (returned, _) ← turns kernel n loop
  return returned

end StreamCopy

end Minnow
