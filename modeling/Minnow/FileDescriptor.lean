import Minnow.Basic
import Minnow.Library.Effects

namespace Minnow

/-!
# File descriptors

A program that reads and writes file descriptors, which its kernel may answer as it likes.

* `Kernel` — the answer to each system call, of which the first argument is the number of calls
  made before it;
* `World` — the variables of the program with its descriptors, and beside them what the kernel has
  taken and given, of which the program keeps no record;
* `FileDescriptor.new`, `read`, `readv`, `write`, `shutdown`, `close` — the constructor and the
  system calls with the checks around them, and a rule for each.

A system call that is interrupted or fails throws.  An exception leaves the world as it was when it
was thrown.
-/

/-- Error numbers. -/
abbrev Errno := ℕ

/-- There is nothing to be done yet. -/
def EAGAIN : Errno := 11

/-- The descriptor is not a socket. -/
def ENOTSOCK : Errno := 88

/-- Connecting goes on. -/
def EINPROGRESS : Errno := 115

/-- The flag of a descriptor that does not block. -/
def O_NONBLOCK : ℕ := 2048

/-- Interest in reading or writing a polled descriptor. -/
inductive EventLoop.Direction where
  | In
  | Out
deriving DecidableEq, Repr

/-- The ends of a socket to be shut down. -/
inductive How where
  | SHUT_RD
  | SHUT_WR
  | SHUT_RDWR
deriving DecidableEq, Repr

/-- An entry of the list for `poll`: `POLLIN`, `POLLOUT` or nothing is asked for. -/
structure PollFd (ι : Type) where
  fd : ι
  events : Option EventLoop.Direction := none

/-- What `poll` reports of an entry. -/
structure Revents where
  pollin : Bool := false
  pollout : Bool := false
  pollerr : Bool := false
  pollhup : Bool := false
  pollnval : Bool := false
deriving DecidableEq, Repr

/-- Nothing is reported. -/
def Revents.isEmpty (r : Revents) : Bool := r = {}

/-- The answers of the kernel.  `poll` returns how many of its reports are not empty; `getsockopt`
    gives the error of a socket, and the length of that option; `now` is the time of a steady clock
    in milliseconds. -/
structure Kernel (ι : Type) where
  read : ℕ → ι → ℕ → Except Errno Bytes
  readv : ℕ → ι → List ℕ → Except Errno Bytes
  writev : ℕ → ι → List Bytes → Except Errno ℕ
  shutdown : ℕ → ι → How → Except Errno PUnit
  close : ℕ → ι → Except Errno PUnit
  fcntl : ℕ → ι → Except Errno ℕ
  poll : ℕ → List (PollFd ι) → ℤ → Except Errno (List Revents)
  getsockopt : ℕ → ι → Except Errno (ℕ × ℕ)
  now : ℕ → UInt64 := fun _ => 0
  strerror : Errno → String

/-- What is known of a descriptor by its wrapper. -/
structure FDWrapper where
  eof : Bool := false
  closed : Bool := false
  nonBlocking : Bool := false
  readCount : UInt32 := 0
  writeCount : UInt32 := 0
deriving DecidableEq, Repr

/-- What has passed through a descriptor. -/
structure Traffic where
  /-- what each read has taken from it -/
  taken : List Bytes := []
  /-- what each write has given to it -/
  given : List Bytes := []
  /-- the program has shut its writing end down, or closed it -/
  ended : Bool := false
  /-- an error has been reported -/
  failed : Bool := false
  /-- a hang-up has been reported that leaves nothing more to be done with it -/
  hungUp : Bool := false
deriving DecidableEq, Repr

/-- A program with variables of type `α` and descriptors `ι`. -/
structure World (ι α : Type) where
  vars : α
  fds : ι → FDWrapper
  traffic : ι → Traffic := fun _ => {}
  calls : ℕ := 0
  /-- the rules of which the cancellation was requested -/
  cancelRequested : List ℕ := []

/-- A part of such a program. -/
abbrev SysM (ι α : Type) := ExceptT StdException (StateM (World ι α))

/-- `unix_error`, which is a `runtime_error`. -/
def Kernel.unixError {ι : Type} (kernel : Kernel ι) (attempt : String) (e : Errno) :
    StdException :=
  .runtimeError (attempt ++ ": " ++ kernel.strerror e)

variable {ι α : Type}

namespace World

/-- A system call is made. -/
def called (w : World ι α) : World ι α := { w with calls := w.calls + 1 }

/-- The variables are set, and the descriptors left alone. -/
def setVars (w : World ι α) (vars : α) : World ι α := { w with vars }

variable [DecidableEq ι]

/-- What is known of one descriptor changes, and its traffic. -/
def touch (w : World ι α) (fd : ι) (f : FDWrapper → FDWrapper) (t : Traffic → Traffic) :
    World ι α :=
  { w with
    fds := Function.update w.fds fd (f (w.fds fd))
    traffic := Function.update w.traffic fd (t (w.traffic fd)) }

/-- What a read that succeeds leaves. -/
def onRead (w : World ι α) (fd : ι) (data : Bytes) (eof : Bool) : World ι α :=
  w.touch fd (fun f => { f with readCount := f.readCount + 1, eof := f.eof || eof })
    fun t => { t with taken := t.taken ++ [data] }

/-- What a write that succeeds leaves. -/
def onWrite (w : World ι α) (fd : ι) (data : Bytes) : World ι α :=
  w.touch fd (fun f => { f with writeCount := f.writeCount + 1 })
    fun t => { t with given := t.given ++ [data] }

/-- What shutting down leaves. -/
def onShutdown (w : World ι α) (fd : ι) (how : How) : World ι α :=
  w.touch fd
    (fun f => match how with
      | .SHUT_RD => { f with readCount := f.readCount + 1 }
      | .SHUT_WR => { f with writeCount := f.writeCount + 1 }
      | .SHUT_RDWR => { f with readCount := f.readCount + 1, writeCount := f.writeCount + 1 })
    fun t => { t with ended := t.ended || how ≠ .SHUT_RD }

/-- What closing leaves. -/
def onClose (w : World ι α) (fd : ι) : World ι α :=
  w.touch fd (fun f => { f with eof := true, closed := true }) fun t => { t with ended := true }

/-- What constructing a wrapper leaves. -/
def onNew (w : World ι α) (fd : ι) : World ι α := w.touch fd (fun _ => {}) id

/-- What setting the flags leaves. -/
def onSetBlocking (w : World ι α) (fd : ι) (blocking : Bool) : World ι α :=
  w.touch fd (fun f => { f with nonBlocking := !blocking }) id

/-- An error has been reported. -/
def onFail (w : World ι α) (fd : ι) : World ι α :=
  w.touch fd id fun t => { t with failed := true }

/-- A hang-up has been reported that leaves nothing more to be done. -/
def onHangUp (w : World ι α) (fd : ι) : World ι α :=
  w.touch fd id fun t => { t with hungUp := true }

section

variable (w : World ι α) {fd fd' : ι} {f : FDWrapper → FDWrapper} {t : Traffic → Traffic} {β : Type}

@[simp] theorem fds_touch_self : (w.touch fd f t).fds fd = f (w.fds fd) :=
  Function.update_self ..

@[simp] theorem traffic_touch_self : (w.touch fd f t).traffic fd = t (w.traffic fd) :=
  Function.update_self ..

/-- Another descriptor is as it was. -/
theorem fds_touch_of_ne (h : fd' ≠ fd) : (w.touch fd f t).fds fd' = w.fds fd' :=
  Function.update_of_ne h ..

/-- What went through another descriptor is as it was. -/
theorem traffic_touch_of_ne (h : fd' ≠ fd) : (w.touch fd f t).traffic fd' = w.traffic fd' :=
  Function.update_of_ne h ..

/-- What is not changed of the descriptor is not changed of any. -/
theorem fds_touch (g : FDWrapper → β) (h : fd' = fd → ∀ x, g (f x) = g x) :
    g ((w.touch fd f t).fds fd') = g (w.fds fd') := by
  by_cases heq : fd' = fd
  · rw [heq, fds_touch_self, h heq]
  · rw [fds_touch_of_ne w heq]

/-- What the change of one descriptor's traffic keeps is kept for all. -/
theorem traffic_touch (g : Traffic → β) (h : fd' = fd → ∀ x, g (t x) = g x) :
    g ((w.touch fd f t).traffic fd') = g (w.traffic fd') := by
  by_cases heq : fd' = fd
  · rw [heq, traffic_touch_self, h heq]
  · rw [traffic_touch_of_ne w heq]

/-- What is true of a descriptor and kept by the change stays true. -/
theorem fds_touch_mono {p : FDWrapper → Prop} (h : ∀ x, p x → p (f x)) (fd' : ι)
    (hp : p (w.fds fd')) : p ((w.touch fd f t).fds fd') := by
  by_cases heq : fd' = fd
  · rw [heq, fds_touch_self]
    exact h _ (heq ▸ hp)
  · rwa [fds_touch_of_ne w heq]

/-- What the change of one descriptor's traffic keeps true stays true for all. -/
theorem traffic_touch_mono {p : Traffic → Prop} (h : ∀ x, p x → p (t x)) (fd' : ι)
    (hp : p (w.traffic fd')) : p ((w.touch fd f t).traffic fd') := by
  by_cases heq : fd' = fd
  · rw [heq, traffic_touch_self]
    exact h _ (heq ▸ hp)
  · rwa [traffic_touch_of_ne w heq]

/-- Only closing closes. -/
@[simp] theorem closed_onRead (data : Bytes) (eof : Bool) :
    ((w.onRead fd data eof).fds fd').closed = (w.fds fd').closed := by
  rw [onRead]
  exact w.fds_touch (·.closed) fun _ _ => rfl

@[simp] theorem closed_onWrite (data : Bytes) :
    ((w.onWrite fd data).fds fd').closed = (w.fds fd').closed := by
  rw [onWrite]
  exact w.fds_touch (·.closed) fun _ _ => rfl

@[simp] theorem closed_onShutdown (how : How) :
    ((w.onShutdown fd how).fds fd').closed = (w.fds fd').closed := by
  rw [onShutdown]
  exact w.fds_touch (·.closed) fun _ _ => by cases how <;> rfl

@[simp] theorem closed_onFail : ((w.onFail fd).fds fd').closed = (w.fds fd').closed := by
  rw [onFail]
  exact w.fds_touch (·.closed) fun _ _ => rfl

@[simp] theorem closed_onHangUp : ((w.onHangUp fd).fds fd').closed = (w.fds fd').closed := by
  rw [onHangUp]
  exact w.fds_touch (·.closed) fun _ _ => rfl

/-- What is counted. -/
@[simp] theorem readCount_onRead (data : Bytes) (eof : Bool) :
    ((w.onRead fd data eof).fds fd).readCount = (w.fds fd).readCount + 1 := by
  rw [onRead, fds_touch_self]

@[simp] theorem writeCount_onWrite (data : Bytes) :
    ((w.onWrite fd data).fds fd).writeCount = (w.fds fd).writeCount + 1 := by
  rw [onWrite, fds_touch_self]

@[simp] theorem writeCount_onShutdown :
    ((w.onShutdown fd .SHUT_WR).fds fd).writeCount = (w.fds fd).writeCount + 1 := by
  rw [onShutdown, fds_touch_self]

/-- Reading gives nothing, and writing takes nothing. -/
@[simp] theorem given_onRead (data : Bytes) (eof : Bool) :
    ((w.onRead fd data eof).traffic fd').given = (w.traffic fd').given := by
  rw [onRead]
  exact w.traffic_touch (·.given) fun _ _ => rfl

@[simp] theorem taken_onRead (data : Bytes) (eof : Bool) :
    ((w.onRead fd data eof).traffic fd).taken = (w.traffic fd).taken ++ [data] := by
  rw [onRead, traffic_touch_self]

@[simp] theorem taken_onWrite (data : Bytes) :
    ((w.onWrite fd data).traffic fd').taken = (w.traffic fd').taken := by
  rw [onWrite]
  exact w.traffic_touch (·.taken) fun _ _ => rfl

@[simp] theorem given_onWrite (data : Bytes) :
    ((w.onWrite fd data).traffic fd).given = (w.traffic fd).given ++ [data] := by
  rw [onWrite, traffic_touch_self]

end

end World

namespace SysM

open ExceptState

/-- A part that may throw. -/
def attempt {β : Type} (x : Except StdException β) : SysM ι α β := ExceptT.mk (pure x)

/-- What does not touch the world either returns or throws. -/
theorem attempt_triple {β : Type} {x : Except StdException β} {P : World ι α → Prop}
    {Q : β → World ι α → Prop} {E : StdException → World ι α → Prop}
    (hok : ∀ b w, x = .ok b → P w → Q b w) (herror : ∀ e w, x = .error e → P w → E e w) :
    Triple P (attempt x) Q E := by
  intro w hw
  cases x with
  | ok b => exact hok b w rfl hw
  | error e => exact herror e w rfl hw

/-- One that does not throw. -/
theorem attempt_eq_ok {β : Type} {x : Except StdException β} {b : β} (h : x = .ok b)
    {P : World ι α → Prop} {E : StdException → World ι α → Prop} :
    Triple P (attempt x) (fun a w => a = b ∧ P w) E :=
  attempt_triple (fun _ _ ha hw => ⟨Except.ok.inj (ha.symm.trans h), hw⟩)
    fun _ _ he _ => by cases h.symm.trans he

/-- A part of a program that knows a part of the variables. -/
def zoom {σ β : Type} (proj : α → σ) (put : α → σ → α) (x : SysM ι σ β) : SysM ι α β :=
  ExceptT.mk fun w =>
    let (result, w') := x.run.run { w with vars := proj w.vars }
    (result, { w' with vars := put w.vars w'.vars })

/-- A rule about a part of the variables is one about all of them, with the others left alone. -/
theorem zoom_triple {σ β : Type} {proj : α → σ} {put : α → σ → α} {x : SysM ι σ β}
    {w : World ι α} {Q : β → World ι α → Prop} {E : StdException → World ι α → Prop}
    (h : Triple (fun t => t = { w with vars := proj w.vars }) x
      (fun b w' => Q b { w' with vars := put w.vars w'.vars })
      fun e w' => E e { w' with vars := put w.vars w'.vars }) :
    Triple (fun t => t = w) (zoom proj put x) Q E := by
  rintro w rfl
  have hout := h _ rfl
  show Outcome Q E ((x.run.run { w with vars := proj w.vars }).1,
    { (x.run.run { w with vars := proj w.vars }).2 with
      vars := put w.vars (x.run.run { w with vars := proj w.vars }).2.vars })
  cases hrun : x.run.run { w with vars := proj w.vars } with
  | mk result w' =>
    rw [hrun] at hout
    cases result <;> exact hout

end SysM

namespace FileDescriptor

open ExceptState

variable (kernel : Kernel ι)

/-- The number of a system call that is made now. -/
def call : SysM ι α ℕ := do
  let n := (← get).calls
  modify World.called
  return n

/-- An error that a descriptor which does not block may report without harm. -/
def Harmless (f : FDWrapper) (e : Errno) : Prop :=
  f.nonBlocking = true ∧ (e = EAGAIN ∨ e = EINPROGRESS)

instance (f : FDWrapper) (e : Errno) : Decidable (Harmless f e) :=
  inferInstanceAs (Decidable (_ ∧ _))

/-- The value that a system call returns, or zero after a harmless error. -/
def checkSystemCall {β : Type} (fd : ι) (attempt : String) (answer : Except Errno β) (zero : β) :
    SysM ι α β := do
  match answer with
  | .ok returnValue => return returnValue
  | .error e =>
    if Harmless ((← get).fds fd) e then return zero
    else throw (kernel.unixError attempt e)

section

variable {kernel} {fd : ι} {P : World ι α → Prop} {E : StdException → World ι α → Prop}

/-- A call that is checked returns a value, or zero, or throws. -/
theorem checkSystemCall_triple {β : Type} {attempt : String} {answer : Except Errno β} {zero : β}
    {Q : β → World ι α → Prop} (hok : ∀ w v, P w → answer = .ok v → Q v w)
    (hzero : ∀ w e, P w → answer = .error e → Q zero w)
    (hfail : ∀ w e, P w → answer = .error e → E (kernel.unixError attempt e) w) :
    Triple P (checkSystemCall kernel fd attempt answer zero) Q E := by
  unfold checkSystemCall
  cases answer with
  | ok v => exact .pure v fun w hw => hok w v hw rfl
  | error e =>
    refine .get fun w hw => .ite (fun _ => .pure _ ?_) fun _ => .throw _ ?_
    · rintro _ rfl
      exact hzero _ e hw rfl
    · rintro _ rfl
      exact hfail _ e hw rfl

/-- A call is numbered. -/
theorem call_triple {β : Type} {f : ℕ → SysM ι α β} {R : β → World ι α → Prop}
    (h : ∀ w, P w → Triple (fun t => t = w.called) (f w.calls) R E) :
    Triple P (call >>= f) R E :=
  fun w hw => h w hw w.called rfl

end

section

variable [DecidableEq ι]

/-- A read without a size asks for 16 KiB. -/
def kReadBufferSize : ℕ := 16384

/-- The size of a buffer that is read into; an empty one is made larger. -/
def bufferSize (size : ℕ) : ℕ := if size = 0 then kReadBufferSize else size

/-- The checks around a read into memory of this size: what was read is laid out, or nothing is
    there after a harmless error. -/
def readAnswer {β : Type} (fd : ι) (answer : Except Errno Bytes) (size : ℕ) (eof : Bytes → Bool)
    (nothing : β) (layOut : Bytes → β) : SysM ι α β := do
  match answer with
  | .error e =>
    if Harmless ((← get).fds fd) e then return nothing
    else throw (kernel.unixError "read" e)
  | .ok data =>
    modify fun w => w.onRead fd data (eof data)
    if data.length > size then throw (.runtimeError "read() read more than requested")
    return layOut data

/-- Read into a buffer of this size.  The end of file is noticed. -/
def read (fd : ι) (size : ℕ) : SysM ι α Bytes := do
  let size := bufferSize size
  readAnswer kernel fd (kernel.read (← call) fd size) size List.isEmpty [] id

/-- The buffers that the bytes are spread over; one that is not filled is cut. -/
def scatter : List ℕ → Bytes → List Bytes
  | [], _ => []
  | size :: sizes, data => data.take size :: scatter sizes (data.drop size)

/-- The size of the last buffer is set to the default. -/
def lastFull (sizes : List ℕ) : List ℕ := sizes.dropLast ++ [kReadBufferSize]

/-- Read into buffers of these sizes.  No end of file is noticed, and where there is nothing to be
    read yet no buffer is left. -/
def readv (fd : ι) (sizes : List ℕ) : SysM ι α (List Bytes) := do
  if sizes = [] then return []
  else
    let sizes := lastFull sizes
    readAnswer kernel fd (kernel.readv (← call) fd sizes) sizes.sum (fun _ => false) []
      (scatter sizes)

/-- Attempt to write some buffers; the number of bytes written is returned. -/
def write (fd : ι) (buffers : List Bytes) : SysM ι α ℕ := do
  let totalSize := buffers.flatten.length
  let bytesWritten ← checkSystemCall kernel fd "writev" (kernel.writev (← call) fd buffers) 0
  modify fun w => w.onWrite fd (buffers.flatten.take bytesWritten)
  if bytesWritten = 0 ∧ totalSize ≠ 0 then
    throw (.runtimeError "write returned 0 given non-empty input buffer")
  if bytesWritten > totalSize then
    throw (.runtimeError "write wrote more than length of input buffer")
  return bytesWritten

/-- `shutdown( how )`; the end is noted once the call went well. -/
def shutdown (fd : ι) (how : How) : SysM ι α PUnit := do
  checkSystemCall kernel fd "shutdown" (kernel.shutdown (← call) fd how) ⟨⟩
  modify fun w => w.onShutdown fd how

/-- `close()`; the end is noted once the call went well. -/
def close (fd : ι) : SysM ι α PUnit := do
  checkSystemCall kernel fd "close" (kernel.close (← call) fd) ⟨⟩
  modify fun w => w.onClose fd

/-- The constructor from the number of a descriptor, which is not negative.  A descriptor may not
    block from the start. -/
def new (fd : ι) : SysM ι α PUnit := do
  modify fun w => w.onNew fd
  let flags ← checkSystemCall kernel fd "fcntl" (kernel.fcntl (← call) fd) 0
  modify fun w => w.onSetBlocking fd (flags &&& O_NONBLOCK = 0)

/-- The flags are read and set again. -/
def setBlocking (fd : ι) (blocking : Bool) : SysM ι α PUnit := do
  let _ ← checkSystemCall kernel fd "fcntl" (kernel.fcntl (← call) fd) 0
  let _ ← checkSystemCall kernel fd "fcntl" (kernel.fcntl (← call) fd) 0
  modify fun w => w.onSetBlocking fd blocking

/-! ### What the calls do -/

variable {kernel} {fd : ι} {P : World ι α → Prop} {E : StdException → World ι α → Prop}

/-- The four ends of a read: not now, data, a failure, and more data than was asked for. -/
theorem readAnswer_triple {β : Type} {answer : Except Errno Bytes} {size : ℕ} {eof : Bytes → Bool}
    {nothing : β} {layOut : Bytes → β} {Q : β → World ι α → Prop}
    (hagain : ∀ w e, P w → answer = .error e → Q nothing w)
    (hdata : ∀ w data, P w → answer = .ok data → data.length ≤ size →
      Q (layOut data) (w.onRead fd data (eof data)))
    (hfail : ∀ w e, P w → answer = .error e → E (kernel.unixError "read" e) w)
    (hlong : ∀ w data, P w → answer = .ok data → size < data.length →
      E (.runtimeError "read() read more than requested") (w.onRead fd data (eof data))) :
    Triple P (readAnswer kernel fd answer size eof nothing layOut) Q E := by
  unfold readAnswer
  cases answer with
  | error e =>
    refine .get fun w hw => .ite (fun _ => .pure _ ?_) fun _ => .throw _ ?_
    · rintro _ rfl
      exact hagain _ e hw rfl
    · rintro _ rfl
      exact hfail _ e hw rfl
  | ok data =>
    refine .of_state fun w hw => .bind (.modify (Q := fun _ t => t = w.onRead fd data (eof data))
      ?_) fun _ => .check ?_ fun hle => .pure _ ?_
    · rintro _ rfl
      rfl
    · rintro hlt _ rfl
      exact hlong w data hw rfl hlt
    · rintro _ rfl
      exact hdata w data hw rfl (not_lt.mp hle)

/-- **Reading** takes no more bytes than there is room for, or nothing, or throws. -/
theorem read_triple {size : ℕ} {Q : Bytes → World ι α → Prop}
    (hagain : ∀ w e, P w → kernel.read w.calls fd (bufferSize size) = .error e → Q [] w.called)
    (hdata : ∀ w data, P w → kernel.read w.calls fd (bufferSize size) = .ok data →
      data.length ≤ bufferSize size → Q data (w.called.onRead fd data data.isEmpty))
    (hfail : ∀ w e, P w → kernel.read w.calls fd (bufferSize size) = .error e →
      E (kernel.unixError "read" e) w.called)
    (hlong : ∀ w data, P w → kernel.read w.calls fd (bufferSize size) = .ok data →
      bufferSize size < data.length → E (.runtimeError "read() read more than requested")
        (w.called.onRead fd data data.isEmpty)) :
    Triple P (read kernel fd size) Q E := by
  refine call_triple fun w hw => readAnswer_triple ?_ ?_ ?_ ?_
  · rintro _ e rfl he
    exact hagain w e hw he
  · rintro _ data rfl hread hle
    exact hdata w data hw hread hle
  · rintro _ e rfl he
    exact hfail w e hw he
  · rintro _ data rfl hread hlt
    exact hlong w data hw hread hlt

/-- **Reading into several buffers.** -/
theorem readv_triple {sizes : List ℕ} (hne : sizes ≠ []) {Q : List Bytes → World ι α → Prop}
    (hagain : ∀ w e, P w → kernel.readv w.calls fd (lastFull sizes) = .error e → Q [] w.called)
    (hdata : ∀ w data, P w → kernel.readv w.calls fd (lastFull sizes) = .ok data →
      data.length ≤ (lastFull sizes).sum →
      Q (scatter (lastFull sizes) data) (w.called.onRead fd data false))
    (hfail : ∀ w e, P w → kernel.readv w.calls fd (lastFull sizes) = .error e →
      E (kernel.unixError "read" e) w.called)
    (hlong : ∀ w data, P w → kernel.readv w.calls fd (lastFull sizes) = .ok data →
      (lastFull sizes).sum < data.length → E (.runtimeError "read() read more than requested")
        (w.called.onRead fd data false)) :
    Triple P (readv kernel fd sizes) Q E := by
  refine .ite (fun hnil => absurd hnil hne) fun _ => call_triple fun w hw =>
    readAnswer_triple ?_ ?_ ?_ ?_
  · rintro _ e rfl he
    exact hagain w e hw he
  · rintro _ data rfl hread hle
    exact hdata w data hw hread hle
  · rintro _ e rfl he
    exact hfail w e hw he
  · rintro _ data rfl hread hlt
    exact hlong w data hw hread hlt

/-- **Writing** gives a first part of the bytes, and some unless there are none, or throws. -/
theorem write_triple {buffers : List Bytes} {Q : ℕ → World ι α → Prop}
    (hdone : ∀ w n, P w → n = 0 ∨ kernel.writev w.calls fd buffers = .ok n →
      n ≤ buffers.flatten.length → (n = 0 → buffers.flatten = []) →
      Q n (w.called.onWrite fd (buffers.flatten.take n)))
    (hfail : ∀ w e, P w → kernel.writev w.calls fd buffers = .error e →
      E (kernel.unixError "writev" e) w.called)
    (hzero : ∀ w, P w → buffers.flatten ≠ [] →
      (∀ n, kernel.writev w.calls fd buffers = .ok n → n = 0) →
      E (.runtimeError "write returned 0 given non-empty input buffer")
        (w.called.onWrite fd []))
    (hlong : ∀ w n, P w → kernel.writev w.calls fd buffers = .ok n → buffers.flatten.length < n →
      E (.runtimeError "write wrote more than length of input buffer")
        (w.called.onWrite fd buffers.flatten)) :
    Triple P (write kernel fd buffers) Q E := by
  refine call_triple fun w hw => ?_
  -- what was written, and what the kernel has said of it
  refine .bind (checkSystemCall_triple (Q := fun n t => t = w.called ∧
    ((∃ e, kernel.writev w.calls fd buffers = .error e ∧ n = 0) ∨
      kernel.writev w.calls fd buffers = .ok n)) ?_ ?_ ?_) fun n => ?_
  · rintro t n rfl hn
    exact ⟨rfl, .inr hn⟩
  · rintro t e rfl he
    exact ⟨rfl, .inl ⟨e, he, rfl⟩⟩
  · rintro t e rfl he
    exact hfail w e hw he
  refine .bind (.modify (Q := fun _ t => t = w.called.onWrite fd (buffers.flatten.take n) ∧
    ((∃ e, kernel.writev w.calls fd buffers = .error e ∧ n = 0) ∨
      kernel.writev w.calls fd buffers = .ok n)) ?_) fun _ => ?_
  · rintro _ ⟨rfl, hn⟩
    exact ⟨rfl, hn⟩
  refine .check ?_ fun hsome => .check ?_ fun hle => .pure _ ?_
  · rintro ⟨rfl, hne⟩ _ ⟨rfl, hn⟩
    refine hzero w hw (List.length_pos_iff.mp (Nat.pos_of_ne_zero hne)) fun m hm => ?_
    rcases hn with ⟨e, he, -⟩ | hn
    · rw [he] at hm
      cases hm
    · exact Except.ok.inj (hm.symm.trans hn)
  · rintro hlt _ ⟨rfl, ⟨e, -, rfl⟩ | hn⟩
    · exact absurd hlt (Nat.not_lt_zero _)
    · rw [List.take_of_length_le hlt.le]
      exact hlong w n hw hn hlt
  · rintro _ ⟨rfl, hn⟩
    refine hdone w n hw (hn.imp_left fun ⟨_, _, h⟩ => h) (not_lt.mp hle) fun hzero => ?_
    by_contra hne
    exact hsome ⟨hzero, (List.length_pos_iff.mpr hne).ne'⟩

/-- A shutdown is noted, or the call failed. -/
theorem shutdown_triple {how : How} {Q : PUnit → World ι α → Prop}
    (hdone : ∀ w, P w → Q ⟨⟩ (w.called.onShutdown fd how))
    (hfail : ∀ w e, P w → kernel.shutdown w.calls fd how = .error e →
      E (kernel.unixError "shutdown" e) w.called) :
    Triple P (shutdown kernel fd how) Q E := by
  refine call_triple fun w hw => .bind (checkSystemCall_triple (Q := fun _ t => t = w.called)
    (fun _ _ ht _ => ht) (fun _ _ ht _ => ht) ?_) fun _ => .modify ?_
  · rintro _ e rfl he
    exact hfail w e hw he
  · rintro _ rfl
    exact hdone w hw

/-- A close is noted, or the call failed. -/
theorem close_triple {Q : PUnit → World ι α → Prop}
    (hdone : ∀ w, P w → Q ⟨⟩ (w.called.onClose fd))
    (hfail : ∀ w e, P w → kernel.close w.calls fd = .error e →
      E (kernel.unixError "close" e) w.called) :
    Triple P (close kernel fd) Q E := by
  refine call_triple fun w hw => .bind (checkSystemCall_triple (Q := fun _ t => t = w.called)
    (fun _ _ ht _ => ht) (fun _ _ ht _ => ht) ?_) fun _ => .modify ?_
  · rintro _ e rfl he
    exact hfail w e hw he
  · rintro _ rfl
    exact hdone w hw

omit [DecidableEq ι] in
/-- Reading the flags, which setting them is as well here. -/
theorem fcntl_triple {f : ℕ → SysM ι α PUnit} (hcalled : ∀ w, P w → P w.called)
    (hfail : ∀ w e, P w → kernel.fcntl w.calls fd = .error e →
      E (kernel.unixError "fcntl" e) w.called)
    (hf : ∀ flags, Triple P (f flags) (fun _ => P) E) :
    Triple P (do
      let n ← call
      let flags ← checkSystemCall kernel fd "fcntl" (kernel.fcntl n fd) 0
      f flags) (fun _ => P) E := by
  refine call_triple fun w hw => .bind (checkSystemCall_triple ?_ ?_ ?_) hf
  · rintro _ flags rfl -
    exact hcalled w hw
  · rintro _ e rfl -
    exact hcalled w hw
  · rintro _ e rfl he
    exact hfail w e hw he

/-- What the calls and the flag do not matter to, and a new wrapper does not either. -/
theorem new_triple (hnew : ∀ w, P w → P (w.onNew fd)) (hcalled : ∀ w, P w → P w.called)
    (hset : ∀ w blocking, P w → P (w.onSetBlocking fd blocking))
    (hfail : ∀ w e, P w → kernel.fcntl w.calls fd = .error e →
      E (kernel.unixError "fcntl" e) w.called) :
    Triple P (new kernel fd) (fun _ => P) E :=
  .bind (.modify (Q := fun _ => P) hnew) fun _ =>
    fcntl_triple hcalled hfail fun _ => .modify fun w => hset w _

/-- What the calls and the flag do not matter to. -/
theorem setBlocking_triple {blocking : Bool} (hcalled : ∀ w, P w → P w.called)
    (hset : ∀ w, P w → P (w.onSetBlocking fd blocking))
    (hfail : ∀ w e, P w → kernel.fcntl w.calls fd = .error e →
      E (kernel.unixError "fcntl" e) w.called) :
    Triple P (setBlocking kernel fd blocking) (fun _ => P) E :=
  fcntl_triple hcalled hfail fun _ => fcntl_triple hcalled hfail fun _ => .modify hset

end

end FileDescriptor

end Minnow
