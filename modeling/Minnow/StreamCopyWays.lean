import Minnow.StreamCopy

namespace Minnow

/-!
# The two ways of the copy

What is known of each way of `bidirectional_stream_copy`, whatever the kernel answers.

* `StreamCopy.WayKept` — what is known of one way; it depends on the stream, the flag and the
  traffic of that way, and on errors and hang-ups only as far as they have happened (`Frame`);
* `StreamCopy.readCallback_triple`, `writeCallback_triple` — the functions of the rules keep it, and
  have used their descriptors.

What may be left by an exception is `Thrown`, which a `Reliable` kernel never leads to.
-/

namespace StreamCopy

open ExceptState EventLoop

/-- A kernel that answers every call as it should, without an error. -/
structure Reliable (kernel : Kernel CopyFd) : Prop where
  read : ∀ n fd size, ∃ data, kernel.read n fd size = .ok data ∧ data.length ≤ size
  writev : ∀ n fd buffers, ∃ k, kernel.writev n fd buffers = .ok k ∧ k ≤ buffers.flatten.length ∧
    (k = 0 → buffers.flatten = [])
  shutdown : ∀ n fd how, kernel.shutdown n fd how = .ok ⟨⟩
  close : ∀ n fd, kernel.close n fd = .ok ⟨⟩
  fcntl : ∀ n fd, ∃ flags, kernel.fcntl n fd = .ok flags
  poll : ∀ n fds timeoutMs, ∃ reports, kernel.poll n fds timeoutMs = .ok reports
  getsockopt : ∀ n fd, kernel.getsockopt n fd = .error ENOTSOCK ∨
    ∃ e, kernel.getsockopt n fd = .ok (e, 4)

/-- What was given to the sink was taken from the source, in order. -/
def Safe (w : World CopyFd CopyVars) : Prop :=
  ∀ way : Way, (w.traffic way.sink).given.flatten <+: (w.traffic way.source).taken.flatten

/-- Something is wrong with a descriptor. -/
def Broken (fd : CopyFd) (w : World CopyFd CopyVars) : Prop :=
  (w.traffic fd).failed = true ∨ (w.traffic fd).hungUp = true

/-- Nothing more comes from the source, or something is wrong. -/
def Ends (way : Way) (w : World CopyFd CopyVars) : Prop :=
  (w.fds way.source).eof = true ∨ Broken way.source w ∨ Broken way.sink w

variable (kernel : Kernel CopyFd)

/-- The rule of a way that reads from its source. -/
def reader : Way → FDRule CopyFd CopyVars
  | .outbound => readStdin kernel
  | .inbound => readSocket kernel

/-- The rule of a way that writes to its sink. -/
def writer : Way → FDRule CopyFd CopyVars
  | .outbound => writeSocket kernel
  | .inbound => writeStdout kernel

/-- What is known of a way while these rules are left. -/
structure WayKept (rules : List (FDRule CopyFd CopyVars)) (w : World CopyFd CopyVars) (way : Way) :
    Prop where
  wf : (w.vars.stream way).WF
  capacity_eq : (w.vars.stream way).capacity = bufferSize
  /-- the stream holds what was taken from the source and not yet given to the sink -/
  taken_eq : (w.traffic way.source).taken.flatten
    = (w.traffic way.sink).given.flatten ++ (w.vars.stream way).contents
  closes : (w.vars.stream way).eof = true → Ends way w
  errors : (w.vars.stream way).error = true → ∃ fd, (w.traffic fd).failed = true
  finishes : w.vars.shutdown way = true → (w.vars.stream way).eof = true ∧
    (w.vars.stream way).contents = [] ∧ (w.traffic way.sink).ended = true
  readerGone : reader kernel way ∉ rules → (w.vars.stream way).eof = true
  writerGone : writer kernel way ∉ rules → w.vars.shutdown way = true ∨ Broken way.sink w

/-- What is kept while these rules are left. -/
structure Kept (rules : List (FDRule CopyFd CopyVars)) (w : World CopyFd CopyVars) : Prop where
  uncancelled : w.cancelRequested = []
  closed : ∀ fd, (w.fds fd).closed = true → fd = .output ∧ w.vars.shutdown .inbound = true
  ways : ∀ way, WayKept kernel rules w way

/-- What may be left by an exception, which a reliable kernel does not lead to. -/
def Thrown (_ : StdException) (w : World CopyFd CopyVars) : Prop := Safe w ∧ ¬ Reliable kernel

/-- What has happened to a way and its descriptors is not undone. -/
structure Later (way : Way) (w w' : World CopyFd CopyVars) : Prop where
  shutdown_eq : w'.vars.shutdown way = w.vars.shutdown way
  eof : (w.fds way.source).eof = true → (w'.fds way.source).eof = true
  ended : (w.traffic way.sink).ended = true → (w'.traffic way.sink).ended = true
  failed : ∀ fd, (w.traffic fd).failed = true → (w'.traffic fd).failed = true
  hungUp : ∀ fd, (w.traffic fd).hungUp = true → (w'.traffic fd).hungUp = true

/-- Nothing has passed through a way. -/
structure Frame (way : Way) (w w' : World CopyFd CopyVars) : Prop extends Later way w w' where
  stream_eq : w'.vars.stream way = w.vars.stream way
  taken_eq : (w'.traffic way.source).taken = (w.traffic way.source).taken
  given_eq : (w'.traffic way.sink).given = (w.traffic way.sink).given

variable {kernel} {rules rules' : List (FDRule CopyFd CopyVars)} {w w' w'' : World CopyFd CopyVars}
  {way : Way}

/-- What was broken stays broken. -/
theorem Later.broken {fd : CopyFd} (h : Later way w w') (hbroken : Broken fd w) : Broken fd w' :=
  hbroken.imp (h.failed fd) (h.hungUp fd)

/-- A way that had its end still has it. -/
theorem Later.ends (h : Later way w w') (hends : Ends way w) : Ends way w' :=
  hends.imp h.eof (Or.imp h.broken h.broken)

/-- One thing after the other. -/
theorem Later.trans (h : Later way w w') (h' : Later way w' w'') : Later way w w'' where
  shutdown_eq := h'.shutdown_eq.trans h.shutdown_eq
  eof := h'.eof ∘ h.eof
  ended := h'.ended ∘ h.ended
  failed := fun fd => h'.failed fd ∘ h.failed fd
  hungUp := fun fd => h'.hungUp fd ∘ h.hungUp fd

/-- Nothing has passed through in either part. -/
theorem Frame.trans (h : Frame way w w') (h' : Frame way w' w'') : Frame way w w'' where
  toLater := h.toLater.trans h'.toLater
  stream_eq := h'.stream_eq.trans h.stream_eq
  taken_eq := h'.taken_eq.trans h.taken_eq
  given_eq := h'.given_eq.trans h.given_eq

/-- **A step of a way**, which is not finished by it. -/
theorem WayKept.step (h : WayKept kernel rules w way) (hlater : Later way w w')
    (hwf : (w'.vars.stream way).WF)
    (hcapacity : (w'.vars.stream way).capacity = (w.vars.stream way).capacity)
    (htaken : (w'.traffic way.source).taken.flatten
      = (w'.traffic way.sink).given.flatten ++ (w'.vars.stream way).contents)
    (hcloses : (w'.vars.stream way).eof = true → (w.vars.stream way).eof = true ∨ Ends way w')
    (herrors : (w'.vars.stream way).error = true →
      (w.vars.stream way).error = true ∨ ∃ fd, (w'.traffic fd).failed = true)
    (hclosed : (w.vars.stream way).eof = true → (w'.vars.stream way).eof = true ∧
      ((w.vars.stream way).contents = [] → (w'.vars.stream way).contents = [])) :
    WayKept kernel rules w' way where
  wf := hwf
  capacity_eq := hcapacity.trans h.capacity_eq
  taken_eq := htaken
  closes := fun heof => (hcloses heof).elim (fun hold => hlater.ends (h.closes hold)) id
  errors := fun herror => (herrors herror).elim (fun hold => by
    obtain ⟨fd, hfd⟩ := h.errors hold
    exact ⟨fd, hlater.failed fd hfd⟩) id
  finishes := fun hshutdown => by
    obtain ⟨heof, hnil, hended⟩ := h.finishes (hlater.shutdown_eq ▸ hshutdown)
    exact ⟨(hclosed heof).1, (hclosed heof).2 hnil, hlater.ended hended⟩
  readerGone := fun hgone => (hclosed (h.readerGone hgone)).1
  writerGone := fun hgone => by
    rw [hlater.shutdown_eq]
    exact (h.writerGone hgone).imp_right hlater.broken

/-- **Frame.**  What is known of a way does not depend on the rest. -/
theorem WayKept.frame (h : WayKept kernel rules w way) (hframe : Frame way w w') :
    WayKept kernel rules w' way := by
  have heq := hframe.stream_eq
  refine h.step hframe.toLater (heq ▸ h.wf) (by rw [heq]) ?_ ?_ ?_ ?_
  · rw [hframe.taken_eq, hframe.given_eq, heq, h.taken_eq]
  · rw [heq]
    exact .inl
  · rw [heq]
    exact .inl
  · rw [heq]
    exact fun heof => ⟨heof, id⟩

/-- Fewer rules are left, when what is said of those that are gone is known. -/
theorem WayKept.remove (h : WayKept kernel rules w way)
    (hreader : reader kernel way ∉ rules' → (w.vars.stream way).eof = true)
    (hwriter : writer kernel way ∉ rules' → w.vars.shutdown way = true ∨ Broken way.sink w) :
    WayKept kernel rules' w way :=
  { h with readerGone := hreader, writerGone := hwriter }

/-- What the invariant says of the ways makes the copy safe. -/
theorem Kept.safe (h : Kept kernel rules w) : Safe w := by
  intro way
  rw [(h.ways way).taken_eq]
  exact List.prefix_append _ _

/-- One way is as it should be, and nothing has passed through the other. -/
theorem Kept.of_way (h : Kept kernel rules w) (huncancelled : w'.cancelRequested = [])
    (hclosed : ∀ fd, (w'.fds fd).closed = true → fd = .output ∧ w'.vars.shutdown .inbound = true)
    (hway : WayKept kernel rules w' way) (hframe : ∀ way', way' ≠ way → Frame way' w w') :
    Kept kernel rules w' where
  uncancelled := huncancelled
  closed := hclosed
  ways := fun way' => by
    by_cases heq : way' = way
    · exact heq ▸ hway
    · exact (h.ways way').frame (hframe way' heq)

/-! ### What happens to a way -/

/-- Touching a descriptor. -/
theorem later_touch (way : Way) (fd : CopyFd) (w : World CopyFd CopyVars)
    {f : FDWrapper → FDWrapper} {t : Traffic → Traffic}
    (heof : ∀ x, x.eof = true → (f x).eof = true)
    (hended : ∀ x, x.ended = true → (t x).ended = true)
    (hfailed : ∀ x, x.failed = true → (t x).failed = true)
    (hhungUp : ∀ x, x.hungUp = true → (t x).hungUp = true) : Later way w (w.touch fd f t) where
  shutdown_eq := rfl
  eof := w.fds_touch_mono heof _
  ended := w.traffic_touch_mono hended _
  failed := w.traffic_touch_mono hfailed
  hungUp := w.traffic_touch_mono hhungUp

/-- Reading undoes nothing. -/
theorem later_onRead (way : Way) (fd : CopyFd) (data : Bytes) (eof : Bool)
    (w : World CopyFd CopyVars) : Later way w (w.onRead fd data eof) :=
  later_touch way fd w (fun _ hx => Bool.or_eq_true_iff.mpr (.inl hx)) (fun _ => id) (fun _ => id)
    fun _ => id

/-- Writing undoes nothing. -/
theorem later_onWrite (way : Way) (fd : CopyFd) (data : Bytes) (w : World CopyFd CopyVars) :
    Later way w (w.onWrite fd data) :=
  later_touch way fd w (fun _ => id) (fun _ => id) (fun _ => id) fun _ => id

/-- Touching a descriptor, but not reading from the source or writing to the sink. -/
theorem Later.frame {fd : CopyFd} {f : FDWrapper → FDWrapper} {t : Traffic → Traffic}
    (h : Later way w (w.touch fd f t)) (htaken : way.source = fd → ∀ x, (t x).taken = x.taken)
    (hgiven : way.sink = fd → ∀ x, (t x).given = x.given) : Frame way w (w.touch fd f t) where
  toLater := h
  stream_eq := rfl
  taken_eq := w.traffic_touch (·.taken) htaken
  given_eq := w.traffic_touch (·.given) hgiven

/-- A failure undoes nothing. -/
theorem later_onFail (way : Way) (fd : CopyFd) (w : World CopyFd CopyVars) :
    Later way w (w.onFail fd) :=
  later_touch way fd w (fun _ => id) (fun _ => id) (fun _ _ => rfl) fun _ => id

/-- Hanging up undoes nothing. -/
theorem later_onHangUp (way : Way) (fd : CopyFd) (w : World CopyFd CopyVars) :
    Later way w (w.onHangUp fd) :=
  later_touch way fd w (fun _ => id) (fun _ => id) (fun _ => id) fun _ _ => rfl

/-- A failure that is noted changes nothing else. -/
theorem Kept.fail (h : Kept kernel rules w) (fd : CopyFd) : Kept kernel rules (w.onFail fd) where
  uncancelled := h.uncancelled
  closed := fun fd' hfd => h.closed fd' (w.closed_onFail.symm.trans hfd)
  ways := fun way => (h.ways way).frame
    ((later_onFail way fd w).frame (fun _ _ => rfl) fun _ _ => rfl)

/-- Hanging up changes nothing else. -/
theorem Kept.hangUp (h : Kept kernel rules w) (fd : CopyFd) :
    Kept kernel rules (w.onHangUp fd) where
  uncancelled := h.uncancelled
  closed := fun fd' hfd => h.closed fd' (w.closed_onHangUp.symm.trans hfd)
  ways := fun way => (h.ways way).frame
    ((later_onHangUp way fd w).frame (fun _ _ => rfl) fun _ _ => rfl)

/-- A system call by itself moves nothing. -/
theorem frame_called (way : Way) (w : World CopyFd CopyVars) : Frame way w w.called :=
  ⟨⟨rfl, id, id, fun _ => id, fun _ => id⟩, rfl, rfl, rfl⟩

/-- A system call by itself keeps the invariant. -/
theorem Kept.called (h : Kept kernel rules w) : Kept kernel rules w.called :=
  ⟨h.uncancelled, h.closed, fun way => (h.ways way).frame (frame_called way w)⟩

@[simp] theorem stream_onStream (way : Way) (f : ByteStream → ByteStream)
    (w : World CopyFd CopyVars) :
    (onStream way f w).vars.stream way = f (w.vars.stream way) :=
  Function.update_self ..

/-- Changing a stream undoes nothing at the descriptors. -/
theorem later_onStream (way way' : Way) (f : ByteStream → ByteStream)
    (w : World CopyFd CopyVars) : Later way w (onStream way' f w) :=
  ⟨rfl, id, id, fun _ => id, fun _ => id⟩

/-- Changing a stream is of no concern to the other way. -/
theorem frame_onStream {way' : Way} (h : way' ≠ way) (f : ByteStream → ByteStream)
    (w : World CopyFd CopyVars) : Frame way' w (onStream way f w) where
  toLater := later_onStream way' way f w
  stream_eq := Function.update_of_ne h ..
  taken_eq := rfl
  given_eq := rfl

/-- Closing a stream. -/
theorem Kept.close (h : Kept kernel rules w) (hends : Ends way w) :
    Kept kernel rules (onStream way ByteStream.close w) := by
  have hway := h.ways way
  refine h.of_way h.uncancelled h.closed (hway.step (later_onStream ..) ?_ ?_ ?_ ?_ ?_ ?_)
    fun way' hne => frame_onStream hne _ w
  all_goals rw [stream_onStream]
  · exact hway.wf.close
  · rfl
  · exact hway.taken_eq
  · exact fun _ => .inr hends
  · exact .inl
  · exact fun _ => ⟨rfl, id⟩

/-- A stream has an error. -/
theorem Kept.setError (h : Kept kernel rules w) (way : Way)
    (hfailed : ∃ fd, (w.traffic fd).failed = true) :
    Kept kernel rules (onStream way ByteStream.setError w) := by
  have hway := h.ways way
  refine h.of_way h.uncancelled h.closed (hway.step (later_onStream ..) ?_ ?_ ?_ ?_ ?_ ?_)
    fun way' hne => frame_onStream hne _ w
  all_goals rw [stream_onStream]
  · exact hway.wf.setError
  · rfl
  · exact hway.taken_eq
  · exact .inl
  · exact fun _ => .inr hfailed
  · exact fun heof => ⟨heof, id⟩

/-! ### Reading and writing -/

/-- The ways have sources of their own. -/
theorem source_ne {way' : Way} (h : way' ≠ way) : way'.source ≠ way.source := by
  cases way <;> cases way' <;> first | exact absurd rfl h | exact CopyFd.noConfusion

/-- The ways have sinks of their own. -/
theorem sink_ne {way' : Way} (h : way' ≠ way) : way'.sink ≠ way.sink := by
  cases way <;> cases way' <;> first | exact absurd rfl h | exact CopyFd.noConfusion

/-- What was read is in the stream. -/
theorem Kept.read (h : Kept kernel rules w) {data : Bytes}
    (hopen : (w.vars.stream way).eof ≠ true)
    (hroom : data.length ≤ (w.vars.stream way).availableCapacity.toNat) :
    Kept kernel rules (onStream way (·.push data) (w.onRead way.source data data.isEmpty)) := by
  have hway := h.ways way
  obtain ⟨hwf, hcontents, hcapacity, heof, herror, -⟩ := ByteStream.push_spec hway.wf data
  have hall : (w.vars.stream way).accepted data = data := by
    rw [ByteStream.accepted, if_neg hopen, List.take_of_length_le hroom]
  refine h.of_way h.uncancelled
    (fun fd hfd => h.closed fd ((w.closed_onRead data data.isEmpty).symm.trans hfd))
    (hway.step ((later_onRead ..).trans (later_onStream ..)) ?_ ?_ ?_ ?_ ?_ ?_) fun way' hne =>
    ((later_onRead ..).frame (fun heq => absurd heq (source_ne hne)) fun _ _ => rfl).trans
      (frame_onStream hne _ _)
  all_goals rw [stream_onStream]
  · exact hwf
  · exact hcapacity
  · show ((w.onRead way.source data data.isEmpty).traffic way.source).taken.flatten
      = ((w.onRead way.source data data.isEmpty).traffic way.sink).given.flatten
        ++ ((w.vars.stream way).push data).contents
    rw [World.taken_onRead, World.given_onRead, List.flatten_concat, hcontents, hall,
      hway.taken_eq, List.append_assoc]
  · exact fun hclosed => .inl (heof.symm.trans hclosed)
  · exact fun hfailed => .inl (herror.symm.trans hfailed)
  · exact fun hclosed => absurd hclosed hopen

/-- The byte that was written has left the stream. -/
theorem Kept.write (h : Kept kernel rules w) (hne : (w.vars.stream way).contents ≠ []) :
    Kept kernel rules (onStream way (·.pop (UInt64.ofNat 1))
      (w.onWrite way.sink (w.vars.stream way).peek)) := by
  have hway := h.ways way
  obtain ⟨hwf, hcontents, hcapacity, heof, herror, -⟩ :=
    ByteStream.pop_spec hway.wf (UInt64.ofNat 1)
  refine h.of_way h.uncancelled
    (fun fd hfd => h.closed fd ((w.closed_onWrite (w.vars.stream way).peek).symm.trans hfd))
    (hway.step ((later_onWrite ..).trans (later_onStream ..)) ?_ ?_ ?_ ?_ ?_ ?_) fun way' hne =>
    ((later_onWrite ..).frame (fun _ _ => rfl) fun heq => absurd heq (sink_ne hne)).trans
      (frame_onStream hne _ _)
  all_goals rw [stream_onStream]
  · exact hwf
  · exact hcapacity
  · show ((w.onWrite _ _).traffic _).taken.flatten = ((w.onWrite _ _).traffic _).given.flatten ++
      ((w.vars.stream way).pop _).contents
    rw [World.taken_onWrite, World.given_onWrite, List.flatten_concat, hcontents, hway.taken_eq,
      ByteStream.peek_eq hway.wf, List.append_assoc]
    exact congrArg _ (List.take_append_drop 1 _).symm
  · exact fun hclosed => .inl (heof.symm.trans hclosed)
  · exact fun hfailed => .inl (herror.symm.trans hfailed)
  · exact fun hclosed => ⟨heof.trans hclosed, fun hnil => absurd hnil hne⟩

/-! ### The end of a way -/

theorem shutdown_setShutdown (way : Way) (w : World CopyFd CopyVars) :
    (setShutdown way w).vars.shutdown way = true :=
  Function.update_self ..

theorem shutdown_setShutdown_of_ne {way' : Way} (h : way' ≠ way) (w : World CopyFd CopyVars) :
    (setShutdown way w).vars.shutdown way' = w.vars.shutdown way' :=
  Function.update_of_ne h ..

/-- A way is finished: its stream has been closed and is empty, and its sink has been told. -/
theorem Kept.finish (h : Kept kernel rules w) (heof : (w.vars.stream way).eof = true)
    (hnil : (w.vars.stream way).contents = []) (huncancelled : w'.cancelRequested = [])
    (hframe : ∀ way', Frame way' w w') (hended : (w'.traffic way.sink).ended = true)
    (hclosed : ∀ fd, (w'.fds fd).closed = true →
      (w.fds fd).closed = true ∨ fd = .output ∧ way = .inbound) :
    Kept kernel rules (setShutdown way w') where
  uncancelled := huncancelled
  closed := fun fd hfd => by
    rcases hclosed fd hfd with hold | ⟨rfl, rfl⟩
    · refine ⟨(h.closed fd hold).1, ?_⟩
      by_cases heq : .inbound = way
      · exact heq ▸ shutdown_setShutdown ..
      · rw [shutdown_setShutdown_of_ne heq, (hframe .inbound).shutdown_eq]
        exact (h.closed fd hold).2
    · exact ⟨rfl, shutdown_setShutdown ..⟩
  ways := fun way' => by
    have hway' := (h.ways way').frame (hframe way')
    refine { hway' with finishes := fun hshutdown => ?_, writerGone := fun hgone => ?_ }
    · by_cases heq : way' = way
      · subst heq
        have hstream : (setShutdown way' w').vars.stream way' = w.vars.stream way' :=
          (hframe way').stream_eq
        rw [hstream]
        exact ⟨heof, hnil, hended⟩
      · exact hway'.finishes ((shutdown_setShutdown_of_ne heq w').symm.trans hshutdown)
    · by_cases heq : way' = way
      · exact .inl (heq ▸ shutdown_setShutdown ..)
      · rw [shutdown_setShutdown_of_ne heq]
        exact hway'.writerGone hgone

/-! ### The functions of the rules -/

/-- A change that changes nothing. -/
theorem onStream_eq_self {f : ByteStream → ByteStream}
    (h : f (w.vars.stream way) = w.vars.stream way) : onStream way f w = w := by
  rw [onStream, h, Function.update_eq_self]
  rfl

/-- Pushing nothing changes nothing. -/
theorem push_nil (s : ByteStream) : s.push [] = s := by
  simp [ByteStream.push]

/-- A reliable kernel does not fail to read. -/
theorem not_reliable_of_read {n : ℕ} {fd : CopyFd} {size : ℕ} {e : Errno}
    (h : kernel.read n fd size = .error e) : ¬ Reliable kernel := by
  intro hreliable
  obtain ⟨data, hdata, -⟩ := hreliable.read n fd size
  rw [h] at hdata
  cases hdata

/-- A read that goes too far does no harm. -/
theorem Safe.onRead (h : Safe w) (fd : CopyFd) (data : Bytes) (eof : Bool) :
    Safe (w.onRead fd data eof) := by
  intro way
  rw [World.given_onRead]
  refine (h way).trans ?_
  by_cases heq : way.source = fd
  · rw [← heq, World.taken_onRead, List.flatten_concat]
    exact List.prefix_append _ _
  · rw [World.onRead, w.traffic_touch_of_ne heq]

/-- Writing nothing is safe. -/
theorem Safe.onWrite_nil (h : Safe w) (fd : CopyFd) : Safe (w.onWrite fd []) := by
  intro way
  rw [World.taken_onWrite]
  by_cases heq : way.sink = fd
  · rw [← heq, World.given_onWrite, List.flatten_concat, List.append_nil]
    exact h way
  · rw [World.onWrite, w.traffic_touch_of_ne heq]
    exact h way

/-- **Reading** as much as there is room for.  If the source has not been read, the kernel is to
    blame. -/
theorem readCallback_triple (count : UInt32) :
    Triple (fun w => Kept kernel rules w ∧ (0 < (w.vars.stream way).availableCapacity.toNat ∧
        (w.vars.stream way).eof ≠ true) ∧ (w.fds way.source).readCount = count)
      (readCallback kernel way)
      (fun _ w => Kept kernel rules w ∧
        ((w.fds way.source).readCount = count → ¬ Reliable kernel)) (Thrown kernel) := by
  refine .get fun w ⟨hkept, ⟨hpos, hopen⟩, hcount⟩ => .bind (Q := fun data t =>
    (t = w.called ∧ data = [] ∧ ¬ Reliable kernel) ∨
      (t = w.called.onRead way.source data data.isEmpty ∧
        data.length ≤ (w.vars.stream way).availableCapacity.toNat)) ?_ fun data => ?_
  · have hsize : FileDescriptor.bufferSize (w.vars.stream way).availableCapacity.toNat
        = (w.vars.stream way).availableCapacity.toNat := if_neg hpos.ne'
    refine FileDescriptor.read_triple ?_ ?_ ?_ ?_
    · rintro _ e rfl he
      exact .inl ⟨rfl, rfl, not_reliable_of_read he⟩
    · rintro _ data rfl - hle
      exact .inr ⟨rfl, hsize ▸ hle⟩
    · rintro _ e rfl he
      exact ⟨hkept.called.safe, not_reliable_of_read he⟩
    · rintro t data rfl hdata hlt
      refine ⟨hkept.called.safe.onRead _ _ _, fun hreliable => ?_⟩
      obtain ⟨data', hdata', hle⟩ := hreliable.read t.calls way.source
        (FileDescriptor.bufferSize (t.vars.stream way).availableCapacity.toNat)
      rw [hdata] at hdata'
      cases hdata'
      exact absurd hle (not_le.mpr hlt)
  · refine .bind (Q := fun _ t => Kept kernel rules t ∧
      ((t.fds way.source).readCount = count → ¬ Reliable kernel)) (.modify ?_) fun _ => .get
        fun t ht => .ite (fun heof => .modify ?_) fun _ => .pure _ ?_
    · rintro _ (⟨rfl, rfl, hnot⟩ | ⟨rfl, hle⟩)
      · have hsame : onStream way (·.push []) w.called = w.called := onStream_eq_self (push_nil _)
        rw [hsame]
        exact ⟨hkept.called, fun _ => hnot⟩
      · refine ⟨hkept.called.read hopen hle, fun hsame => ?_⟩
        have hnext : (w.fds way.source).readCount + 1 = count :=
          (w.called.readCount_onRead data data.isEmpty).symm.trans hsame
        rw [hcount] at hnext
        grind
    · rintro _ rfl
      exact ⟨ht.1.close (.inl heof), ht.2⟩
    · rintro _ rfl
      exact ht

/-- A reliable kernel does not fail to write, nor take too much, nor nothing of something. -/
theorem not_reliable_of_writev {n : ℕ} {fd : CopyFd} {buffers : List Bytes}
    {answer : Except Errno ℕ} (h : kernel.writev n fd buffers = answer)
    (hwrong : ∀ k, answer = .ok k → k ≤ buffers.flatten.length → k = 0 ∧ buffers.flatten ≠ []) :
    ¬ Reliable kernel := by
  intro hreliable
  obtain ⟨k, hk, hle, hsome⟩ := hreliable.writev n fd buffers
  obtain ⟨hzero, hne⟩ := hwrong k (h.symm.trans hk) hle
  exact hne (hsome hzero)

/-- **Writing** the first byte, and finishing after the last one.  Unless the sink has been written
    or shut down, it has been closed. -/
theorem writeCallback_triple {finish : CopyM PUnit} (count : UInt32)
    (hfinish : ∀ n, Triple (fun w => Kept kernel rules w ∧ (w.vars.stream way).eof = true ∧
        (w.vars.stream way).contents = [] ∧ (w.fds way.sink).writeCount = n) finish
      (fun _ w => Kept kernel rules (setShutdown way w) ∧
        ((w.fds way.sink).writeCount = n + 1 ∨ (w.fds way.sink).closed = true)) (Thrown kernel)) :
    Triple (fun w => Kept kernel rules w ∧ ((w.vars.stream way).contents ≠ [] ∨
        (w.vars.stream way).eof = true) ∧ (w.fds way.sink).writeCount = count)
      (writeCallback kernel way finish)
      (fun _ w => Kept kernel rules w ∧
        ((w.fds way.sink).writeCount = count → (w.fds way.sink).closed = true))
      (Thrown kernel) := by
  -- what is left to be done after the byte
  have hrest : Triple (fun w => Kept kernel rules w ∧ ((w.fds way.sink).writeCount = count + 1 ∨
      (w.fds way.sink).writeCount = count ∧ (w.vars.stream way).isFinished = true))
      (do if ((← get).vars.stream way).isFinished then
            finish
            modify (setShutdown way))
      (fun _ w => Kept kernel rules w ∧
        ((w.fds way.sink).writeCount = count → (w.fds way.sink).closed = true))
      (Thrown kernel) := by
    refine .get fun w ⟨hkept, hcount⟩ => .ite (fun hfinished => ?_) fun hnot => .pure _ ?_
    · obtain ⟨heof, hnil⟩ := (ByteStream.isFinished_iff (hkept.ways way).wf).mp hfinished
      refine .bind ((hfinish (w.fds way.sink).writeCount).pre ?_) fun _ => .modify fun t ht => ?_
      · rintro _ rfl
        exact ⟨hkept, heof, hnil, rfl⟩
      · refine ⟨ht.1, fun hsame => ht.2.resolve_left fun hnext => ?_⟩
        have hsame' : (t.fds way.sink).writeCount = count := hsame
        grind
    · rintro _ rfl
      refine ⟨hkept, fun hsame => ?_⟩
      rcases hcount with hnext | ⟨-, hfinished⟩
      · grind
      · exact absurd hfinished hnot
  refine .get fun w ⟨hkept, hready, hcount⟩ => .ite (fun hsome => ?_) fun hnone => ?_
  · have hne : (w.vars.stream way).contents ≠ [] := fun hnil =>
      hsome ((ByteStream.bytesBuffered_eq_zero (hkept.ways way).wf).mpr hnil)
    have hpeek : ([(w.vars.stream way).peek] : List Bytes).flatten = (w.vars.stream way).peek :=
      List.append_nil _
    obtain ⟨b, rest, hcons⟩ := List.exists_cons_of_ne_nil hne
    have hone : (w.vars.stream way).peek = [b] := by
      rw [ByteStream.peek_eq (hkept.ways way).wf, hcons]
      rfl
    refine .bind (Q := fun n t => n = 1 ∧ t = w.called.onWrite way.sink (w.vars.stream way).peek)
      (FileDescriptor.write_triple ?_ ?_ ?_ ?_) fun n => .bind (.modify ?_) fun _ => hrest
    · rintro t n rfl - hle hzero
      rw [hpeek, hone] at hle hzero
      have hn : n = 1 := le_antisymm hle (Nat.one_le_iff_ne_zero.mpr fun h => by cases hzero h)
      refine ⟨hn, ?_⟩
      rw [hpeek, hone, hn]
      rfl
    · rintro t e rfl he
      exact ⟨hkept.called.safe, not_reliable_of_writev he fun k hk => by cases hk⟩
    · rintro t rfl hne hzero
      refine ⟨?_, fun hreliable => ?_⟩
      · exact (hkept.called.safe).onWrite_nil _
      · obtain ⟨k, hk, -, hk0⟩ := hreliable.writev t.calls way.sink [(t.vars.stream way).peek]
        exact hne (hk0 (hzero k hk))
    · rintro t n rfl hn hlt
      refine ⟨?_, not_reliable_of_writev hn fun k hk hle => ?_⟩
      · rw [hpeek]
        exact (hkept.called.write hne).safe
      · cases hk
        exact absurd hle (not_le.mpr hlt)
    · rintro _ ⟨rfl, rfl⟩
      refine ⟨hkept.called.write hne, .inl ?_⟩
      exact (w.called.writeCount_onWrite (w.vars.stream way).peek).trans (congrArg (· + 1) hcount)
  · refine hrest.pre ?_
    rintro _ rfl
    have hnil := (ByteStream.bytesBuffered_eq_zero (hkept.ways way).wf).mp (not_not.mp hnone)
    refine ⟨hkept, .inr ⟨hcount, (ByteStream.isFinished_iff (hkept.ways way).wf).mpr ⟨?_, hnil⟩⟩⟩
    exact hready.resolve_left (not_not.mpr hnil)

/-- Shutting the socket down. -/
theorem finish_socket (n : UInt32) :
    Triple (fun w => Kept kernel rules w ∧ (w.vars.stream .outbound).eof = true ∧
        (w.vars.stream .outbound).contents = [] ∧ (w.fds .socket).writeCount = n)
      (FileDescriptor.shutdown kernel .socket .SHUT_WR)
      (fun _ w => Kept kernel rules (setShutdown .outbound w) ∧
        ((w.fds .socket).writeCount = n + 1 ∨ (w.fds .socket).closed = true)) (Thrown kernel) := by
  refine FileDescriptor.shutdown_triple (fun w ⟨hkept, heof, hnil, hn⟩ => ⟨?_, .inl ?_⟩)
    fun w e ⟨hkept, _⟩ he => ⟨hkept.called.safe, fun hreliable => ?_⟩
  · have hlater : ∀ way, Later way w.called (w.called.onShutdown .socket .SHUT_WR) := fun way =>
      later_touch way .socket w.called (fun _ => id)
        (fun _ hended => Bool.or_eq_true_iff.mpr (.inl hended)) (fun _ => id) fun _ => id
    refine hkept.called.finish heof hnil hkept.uncancelled
      (fun way => (hlater way).frame (fun _ _ => rfl) fun _ _ => rfl) ?_ fun fd hfd => .inl ?_
    · refine (congrArg Traffic.ended w.called.traffic_touch_self).trans ?_
      exact Bool.or_true _
    · exact (w.called.closed_onShutdown .SHUT_WR).symm.trans hfd
  · exact w.called.writeCount_onShutdown.trans (congrArg (· + 1) hn)
  · rw [hreliable.shutdown] at he
    cases he

/-- Closing the standard output. -/
theorem finish_output (n : UInt32) :
    Triple (fun w => Kept kernel rules w ∧ (w.vars.stream .inbound).eof = true ∧
        (w.vars.stream .inbound).contents = [] ∧ (w.fds .output).writeCount = n)
      (FileDescriptor.close kernel .output)
      (fun _ w => Kept kernel rules (setShutdown .inbound w) ∧
        ((w.fds .output).writeCount = n + 1 ∨ (w.fds .output).closed = true)) (Thrown kernel) := by
  refine FileDescriptor.close_triple (fun w ⟨hkept, heof, hnil, hn⟩ => ⟨?_, .inr ?_⟩)
    fun w e ⟨hkept, _⟩ he => ⟨hkept.called.safe, fun hreliable => ?_⟩
  · have hlater : ∀ way, Later way w.called (w.called.onClose .output) := fun way =>
      later_touch way .output w.called (fun _ _ => rfl) (fun _ _ => rfl) (fun _ => id) fun _ => id
    refine hkept.called.finish heof hnil hkept.uncancelled
      (fun way => (hlater way).frame (fun _ _ => rfl) fun _ _ => rfl) ?_ fun fd hfd => ?_
    · exact congrArg Traffic.ended w.called.traffic_touch_self
    · by_cases heq : fd = .output
      · exact .inr ⟨heq, rfl⟩
      · exact .inl ((congrArg FDWrapper.closed (w.called.fds_touch_of_ne heq)).symm.trans hfd)
  · exact congrArg FDWrapper.closed w.called.fds_touch_self
  · rw [hreliable.close] at he
    cases he

/-- What follows the last byte. -/
def finish (kernel : Kernel CopyFd) : Way → CopyM PUnit
  | .outbound => FileDescriptor.shutdown kernel .socket .SHUT_WR
  | .inbound => FileDescriptor.close kernel .output

/-- Telling the sink the end finishes the way. -/
theorem finish_triple (way : Way) (n : UInt32) :
    Triple (fun w => Kept kernel rules w ∧ (w.vars.stream way).eof = true ∧
        (w.vars.stream way).contents = [] ∧ (w.fds way.sink).writeCount = n) (finish kernel way)
      (fun _ w => Kept kernel rules (setShutdown way w) ∧
        ((w.fds way.sink).writeCount = n + 1 ∨ (w.fds way.sink).closed = true))
      (Thrown kernel) := by
  cases way with
  | outbound => exact finish_socket n
  | inbound => exact finish_output n

end StreamCopy

end Minnow
