import Minnow.ConnectionProgress
import Minnow.PeerStreams
import Minnow.Library.Trace

namespace Minnow

/-!
# Everything arrives

Two peers that go on for ever, over a network that loses, duplicates, delays and reorders messages,
but not all of them for ever.

* `Connection.Fair` — what is asked of the owners, the clock and the network: the outbound stream
  is pushed, the timer runs out, the inbound stream is read empty again and again, and of a kind
  of message that is transmitted again and again, one arrives again and again;
* `Connection.eventually_delivered` — from some time on, all bytes accepted are assembled at the
  other end, and the end of the stream is there, too.
-/

open Filter Trace TCPSender TCPReceiver SlidingWindow

namespace Connection

/-- What a peer transmits at a step. -/
def transmits (c : Connection) (op : Side × PeerOp) (t : Side) : Set TCPMessage :=
  {x | op.1 = t ∧ x ∈ (op.2.act (c t).peer).2}

/-- What arrives at a peer at a step. -/
def arrives (op : Side × PeerOp) (t : Side) : Set TCPMessage := {x | op = (t, .receive x)}

/-- A connection that goes on for ever. -/
def forever (peer : Side → TCPPeer) (ops : ℕ → Side × PeerOp) : ℕ → Connection :=
  Machine.trace step (start peer) ops

/-- What may happen at a step: the network forges no message, and no owner reports an error. -/
structure Regular (c : Connection) (op : Side × PeerOp) : Prop where
  unforged : c.Unforged op
  orderly : op.2.Orderly

/-- The stream that is written at the side `s` gets its turn again and again. -/
structure Fair (c : ℕ → Connection) (ops : ℕ → Side × PeerOp) (s : Side) : Prop where
  pushes : ∃ᶠ n in atTop, ops n = (s, .push)
  expires : ∃ᶠ n in atTop, (c n s).peer.sender.outstandingSegments = [] ∨
    ∃ ms, ops n = (s, .tick ms) ∧
      (c n s).peer.sender.currentRTO ≤ (c n s).peer.sender.timerElapsed + ms
  reads : ∃ᶠ n in atTop, (c n s.other).peer.inbound.contents = []
  link : ∀ t, FairLink (fun n => transmits (c n) (ops n) t) fun n => arrives (ops n) t.other

/-- A run of two peers without end. -/
structure Endless (cfg : Side → TCPConfig) (input : Side → ByteStream)
    (ops : ℕ → Side × PeerOp) (c : ℕ → Connection) : Prop where
  step : ∀ n, c (n + 1) = (c n).step (ops n)
  new : ∀ s, ByteStream.new (cfg s).sendCapacity = .ok (input s)
  flowing : ∀ n, Flowing cfg input (c n)
  bounded : ∀ n, Bounded (c n)
  regular : ∀ n, Regular (c n) (ops n)

namespace Endless

variable {cfg : Side → TCPConfig} {input : Side → ByteStream} {ops : ℕ → Side × PeerOp}
  {c : ℕ → Connection} {s t : Side} {n N A B : ℕ}

/-- The peer whose turn it is makes the step. -/
theorem step_of_eq (h : Endless cfg input ops c) {op : PeerOp} (hop : ops n = (t, op)) :
    c (n + 1) t = (c n t).step op := by
  rw [h.step, hop, step_self]

/-! ### What can only grow -/

/-- What no operation of a peer makes smaller. -/
theorem monotone (h : Endless cfg input ops c) {f : PeerRun → ℕ}
    (hf : ∀ n op, ops n = (t, op) → f (c n t) ≤ f ((c n t).step op)) :
    Monotone fun n => f (c n t) := by
  refine monotone_nat_of_le_succ fun n => ?_
  obtain ⟨⟨t', op⟩, hop⟩ : ∃ o, ops n = o := ⟨_, rfl⟩
  rcases eq_or_ne t t' with rfl | hne
  · exact (hf n op hop).trans_eq (congrArg f (h.step_of_eq hop).symm)
  · rw [h.step, hop, step_of_ne hne]

/-- What was acknowledged stays so. -/
theorem monotone_acked (h : Endless cfg input ops c) (s : Side) :
    Monotone fun n => (c n s).history.acked :=
  h.monotone (f := fun r => r.history.acked) fun n _ _ => (c n s).history.acked_le_run _

/-- Sequence numbers that were sent stay sent. -/
theorem monotone_consumed (h : Endless cfg input ops c) (s : Side) :
    Monotone fun n => (c n s).history.consumed :=
  h.monotone (f := fun r => r.history.consumed) fun n op _ => (c n s).consumed_le_step op

/-- Bytes that were accepted stay accepted. -/
theorem monotone_accepted (h : Endless cfg input ops c) (s : Side) :
    Monotone fun n => (c n s).history.accepted.length :=
  h.monotone (f := fun r => r.history.accepted.length)
    fun n _ _ => (c n s).history.accepted_le_run _

/-- A stream that was closed stays closed. -/
theorem monotone_closed (h : Endless cfg input ops c) (s : Side) :
    Monotone fun n => (c n s).peer.outbound.eof.toNat := by
  refine h.monotone (f := fun r => r.peer.outbound.eof.toNat) fun n op _ => ?_
  by_cases hclose : op = .close
  · rw [hclose]
    exact Bool.toNat_le _
  · have htracks : (c n s).Tracks (cfg s) := ⟨_, h.new s, (h.flowing n).tracked s⟩
    rw [htracks.eof_step op hclose]

/-- Receivers go on. -/
theorem goesOn (h : Endless cfg input ops c) {op : PeerOp} (hop : ops n = (t, op)) :
    (c n t).peer.receiver.GoesOn ((c n t).step op).peer.receiver :=
  (h.flowing n).goesOn h.new (h.bounded n) (hop ▸ (h.regular n).unforged)

/-- What was assembled stays assembled. -/
theorem monotone_next (h : Endless cfg input ops c) (s : Side) :
    Monotone fun n => (c n s).peer.receiver.next :=
  h.monotone (f := fun r => r.peer.receiver.next) fun _ _ hop => (h.goesOn hop).next_le

/-- A stream that has ended stays so. -/
theorem monotone_ended (h : Endless cfg input ops c) (s : Side) :
    Monotone fun n => (c n s).peer.inbound.eof.toNat :=
  h.monotone (f := fun r => r.peer.inbound.eof.toNat)
    fun _ _ hop => Bool.toNat_le_toNat (h.goesOn hop).eof

/-- No more is acknowledged than was sent. -/
theorem acked_le (h : Endless cfg input ops c) (s : Side) (n : ℕ) :
    (c n s).history.acked ≤ (c n s).history.consumed :=
  ((h.flowing n).acking h.new (h.bounded n) s).acked_le

/-- What is sent is bounded. -/
theorem consumed_le (h : Endless cfg input ops c) (s : Side) (n : ℕ) :
    (c n s).history.consumed ≤ 2 ^ 31 :=
  ((h.flowing n).consumed_lt h.new (h.bounded n) s).le

/-- What is assembled is bounded. -/
theorem next_le (h : Endless cfg input ops c) (s : Side) (n : ℕ) :
    (c n s.other).peer.receiver.next ≤ 2 ^ 31 := by
  have hnext : (c n s.other).peer.receiver.next ≤ (payloads (c n s).history.sent).length :=
    ((h.flowing n).direction s).assembling.slices.next_le
  have hlength := (h.flowing n).length_sent h.new (h.bounded n) s
  omega

end Endless

/-! ### When nothing grows any more -/

/-- The stream that is written at the side `s` stays as it is after some time. -/
structure Settled (c : ℕ → Connection) (s : Side) (N : ℕ) : Prop where
  acked : ∀ n ≥ N, (c n s).history.acked = (c N s).history.acked
  consumed : ∀ n ≥ N, (c n s).history.consumed = (c N s).history.consumed
  accepted : ∀ n ≥ N, (c n s).history.accepted.length = (c N s).history.accepted.length
  closed : ∀ n ≥ N, (c n s).peer.outbound.eof.toNat = (c N s).peer.outbound.eof.toNat
  next : ∀ n ≥ N, (c n s.other).peer.receiver.next = (c N s.other).peer.receiver.next
  ended : ∀ n ≥ N, (c n s.other).peer.inbound.eof.toNat = (c N s.other).peer.inbound.eof.toNat

namespace Endless

variable {cfg : Side → TCPConfig} {input : Side → ByteStream} {ops : ℕ → Side × PeerOp}
  {c : ℕ → Connection} {s t : Side} {n N : ℕ}

/-- **Rest.**  A bounded stream comes to rest. -/
theorem settles (h : Endless cfg input ops c) (s : Side) : ∃ N, Settled c s N := by
  have hacked := settles_of_monotone (h.monotone_acked s)
    fun n => (h.acked_le s n).trans (h.consumed_le s n)
  have hconsumed := settles_of_monotone (h.monotone_consumed s) (h.consumed_le s)
  have haccepted := settles_of_monotone (h.monotone_accepted s) fun n => (h.bounded n s).le
  have hclosed := settles_of_monotone (h.monotone_closed s) fun _ => Bool.toNat_le _
  have hnext := settles_of_monotone (h.monotone_next s.other) (h.next_le s)
  have hended := settles_of_monotone (h.monotone_ended s.other) fun _ => Bool.toNat_le _
  obtain ⟨N, h₁, h₂, h₃, h₄, h₅, h₆⟩ := (hacked.and <| hconsumed.and <| haccepted.and <|
    hclosed.and <| hnext.and hended).exists
  exact ⟨N, h₁, h₂, h₃, h₄, h₅, h₆⟩

end Endless

namespace Settled

variable {cfg : Side → TCPConfig} {input : Side → ByteStream} {ops : ℕ → Side × PeerOp}
  {c : ℕ → Connection} {s : Side} {n N : ℕ}

/-- The inbound stream does not end any more. -/
theorem eof_eq (hs : Settled c s N) (hn : n ≥ N) :
    (c n s.other).peer.inbound.eof = (c N s.other).peer.inbound.eof := by
  rw [Bool.eq_iff_iff, ← Bool.toNat_eq_one, hs.ended n hn, Bool.toNat_eq_one]

/-- The position that is acknowledged stays. -/
theorem ackPos_eq (hs : Settled c s N) (hn : n ≥ N) :
    (c n s.other).peer.receiver.ackPos = (c N s.other).peer.receiver.ackPos := by
  rw [ackPos, ackPos, hs.next n hn]
  exact congrArg _ (hs.ended n hn)

variable (hs : Settled c s N) (h : Endless cfg input ops c)
include hs h

/-- No segment is sent any more. -/
theorem sent_eq (hn : n ≥ N) : (c n s).history.sent = (c N s).history.sent := by
  have hprefix : (c N s).history.sent <+: (c n s).history.sent := by
    induction n, hn using Nat.le_induction with
    | base => exact List.prefix_refl _
    | succ n hn ih =>
      obtain ⟨⟨t, op⟩, hop⟩ : ∃ o, ops n = o := ⟨_, rfl⟩
      refine ih.trans ?_
      rcases eq_or_ne s t with rfl | hne
      · rw [h.step_of_eq hop]
        exact (c n s).history.sent_prefix_run _
      · rw [h.step, hop, step_of_ne hne]
  obtain ⟨new, hnew⟩ := hprefix
  have hconsumed := hs.consumed n hn
  rw [SenderRun.consumed, SenderRun.consumed, ← hnew, seqnos_append, Nat.add_eq_left] at hconsumed
  have htiling := (((h.flowing n).tracked s).tiled (h.new s)).tiling
  have hnil : new = [] := by
    refine (total_eq_zero _ fun m hm => ?_).mp hconsumed
    exact (htiling.segment m (hnew ▸ List.mem_append_right _ hm)).1
  rw [← hnew, hnil, List.append_nil]

/-- The segments that are needed stay the same. -/
theorem needed_iff (hn : n ≥ N) {m : TCPSenderMessage} : Needed (c n s) m ↔ Needed (c N s) m := by
  rw [Needed, Needed, hs.sent_eq h hn, hs.acked n hn]

/-- A segment that is needed arrives again and again. -/
theorem requests (hfair : Fair c ops s)
    (hmore : (c N s).history.acked < (c N s).history.consumed) :
    ∃ᶠ n in atTop, n ≥ N ∧ ∃ x, ops n = (s.other, .receive x) ∧ Needed (c n s) x.sender := by
  have hput : ∃ᶠ n in atTop, ∃ x ∈ transmits (c n) (ops n) s, Needed (c N s) x.sender := by
    refine (hfair.expires.and_eventually (eventually_ge_atTop N)).mono fun n ⟨hexp, hn⟩ => ?_
    have hmore' : (c n s).history.acked < (c n s).history.consumed := by
      rw [hs.acked n hn, hs.consumed n hn]
      exact hmore
    rcases hexp with hnil | ⟨ms, hop, hexp⟩
    · exact absurd hnil ((h.flowing n).outstanding_ne_nil h.new (h.bounded n) hmore')
    · obtain ⟨x, hx, hneeded⟩ := (h.flowing n).expired h.new (h.bounded n) hmore' hexp
      refine ⟨x, ?_, (hs.needed_iff h hn).mp hneeded⟩
      rw [transmits, hop]
      exact ⟨rfl, hx⟩
  have htaken := (hfair.link s _ hput).and_eventually (eventually_ge_atTop N)
  refine htaken.mono fun n ⟨⟨x, hx, hneeded⟩, hn⟩ => ⟨hn, x, hx, ?_⟩
  exact (hs.needed_iff h hn).mpr hneeded

/-- Once it is read empty, the other inbound stream stays empty. -/
theorem stays_empty (hfair : Fair c ops s) :
    ∀ᶠ n in atTop, (c n s.other).peer.inbound.contents = [] := by
  obtain ⟨M, hempty, hM⟩ := (hfair.reads.and_eventually (eventually_ge_atTop N)).exists
  refine eventually_atTop.mpr ⟨M, fun n hn => ?_⟩
  induction n, hn using Nat.le_induction with
  | base => exact hempty
  | succ n hn ih =>
    obtain ⟨⟨t, op⟩, hop⟩ : ∃ o, ops n = o := ⟨_, rfl⟩
    rcases eq_or_ne s.other t with rfl | hne
    · have hbuffered := (h.goesOn hop).buffered_le
      have hnext := hs.next n (hM.trans hn)
      have hnext' := hs.next (n + 1) (hM.trans (Nat.le_succ_of_le hn))
      rw [h.step_of_eq hop] at hnext' ⊢
      have hnone : (c n s.other).peer.receiver.output.contents = [] := ih
      rw [hnone, hnext, hnext', List.length_nil] at hbuffered
      exact List.eq_nil_of_length_eq_zero (by
        show ((c n s.other).step op).peer.receiver.output.contents.length = 0
        omega)
    · rw [h.step, hop, step_of_ne hne]
      exact ih

/-- What is needed is acknowledged, and the acknowledgment arrives again and again. -/
theorem replies (hfair : Fair c ops s) (hroom : 0 < (cfg s.other).recvCapacity.toNat)
    (hopen : (c N s.other).peer.inbound.eof = false)
    (hmore : (c N s).history.acked < (c N s).history.consumed) :
    (c N s).history.acked < (c N s.other).peer.receiver.ackPos ∧
      ∃ᶠ n in atTop, n ≥ N ∧ ∃ y, ops n = (s, .receive y) ∧ y.receiver.ackno =
        some (Wrap32.ofPos (c N s.other).peer.receiver.ackPos (cfg s).isn) := by
  have hrequests := (hs.requests h hfair hmore).and_eventually (hs.stays_empty h hfair)
  have hanswer : ∀ n, (n ≥ N ∧ ∃ x, ops n = (s.other, .receive x) ∧ Needed (c n s) x.sender) ∧
      (c n s.other).peer.inbound.contents = [] →
      (c N s).history.acked < (c N s.other).peer.receiver.ackPos ∧
        ∃ y ∈ transmits (c n) (ops n) s.other, y.receiver.ackno =
          some (Wrap32.ofPos (c N s.other).peer.receiver.ackPos (cfg s).isn) := by
    rintro n ⟨⟨hn, x, hop, hneeded⟩, hempty⟩
    have hopen' : (c n s.other).peer.inbound.eof = false := (hs.eof_eq hn).trans hopen
    obtain ⟨hlt, y, hy, hack⟩ :=
      (h.flowing n).reply h.new (h.bounded n) hneeded hopen' hroom hempty
    -- the receiver is where it was at `N`
    have hactive := ((h.flowing n).intact s.other).active hopen'
    have hreceiver : (c (n + 1) s.other).peer.receiver
        = (c n s.other).peer.receiver.receive x.sender := by
      rw [h.step_of_eq hop]
      exact (TCPPeer.receive_of_active hactive x).2.1
    rw [← hreceiver, hs.ackPos_eq (Nat.le_succ_of_le hn)] at hlt hack
    rw [hs.acked n hn] at hlt
    refine ⟨hlt, y, ?_, hack⟩
    rw [transmits, hop]
    exact ⟨rfl, hy⟩
  obtain ⟨n, hn⟩ := hrequests.exists
  refine ⟨(hanswer n hn).1, ?_⟩
  have htaken := hfair.link s.other _ (hrequests.mono fun n hn => (hanswer n hn).2)
  rw [Side.other_other] at htaken
  refine (htaken.and_eventually (eventually_ge_atTop N)).mono fun n ⟨⟨y, hy, hack⟩, hn⟩ => ?_
  exact ⟨hn, y, hy, hack⟩

/-- **All is acknowledged.** -/
theorem all_acked (hfair : Fair c ops s) (hroom : 0 < (cfg s.other).recvCapacity.toNat)
    (hopen : (c N s.other).peer.inbound.eof = false) :
    (c N s).history.acked = (c N s).history.consumed := by
  refine (h.acked_le s N).antisymm (not_lt.mp fun hmore => ?_)
  obtain ⟨hlt, hreplies⟩ := hs.replies h hfair hroom hopen hmore
  obtain ⟨n, hn, y, hop, hack⟩ := hreplies.exists
  have hmem : y ∈ (c n s.other).transmitted :=
    (hop ▸ (h.regular n).unforged : (c n).Unforged (s, .receive y)) y rfl
  have hd := (h.flowing n).direction_isn h.new s
  have hset := (hd.acknos y hmem _ hack).1
  have hle := hd.ackPos_le (((h.flowing n).tracked s).tiled (h.new s)).tiling hset
  rw [hs.ackPos_eq hn] at hle
  rw [← hs.acked n hn] at hlt
  have hacked := (h.flowing n).acked_lt h.new (h.bounded n) hmem hack hlt hle
  rw [← h.step_of_eq hop, hs.acked n hn, hs.acked (n + 1) (Nat.le_succ_of_le hn)] at hacked
  exact lt_irrefl _ hacked

/-- **The end.** -/
theorem delivered (hfair : Fair c ops s) (hroom : 0 < (cfg s.other).recvCapacity.toNat)
    (hn : n ≥ N) : Delivered (c n s) (c n s.other) := by
  refine (h.flowing n).delivered h.new (h.bounded n) ?_
  cases hopen : (c N s.other).peer.inbound.eof with
  | true => exact .inl ((hs.eof_eq hn).trans hopen)
  | false =>
    have hall := hs.all_acked h hfair hroom hopen
    -- a push has nothing to send
    obtain ⟨m, hop, hm⟩ := (hfair.pushes.and_eventually (eventually_ge_atTop N)).exists
    have hnothing : ((c m s).step .push).history.consumed = (c m s).history.consumed := by
      rw [← h.step_of_eq hop, hs.consumed m hm, hs.consumed (m + 1) (Nat.le_succ_of_le hm)]
    have hallm : (c m s).history.acked = (c m s).history.consumed := by
      rw [hs.acked m hm, hs.consumed m hm, hall]
    have hsent := (h.flowing m).all_sent h.new (h.bounded m) hallm hnothing
    have hacked := ((h.flowing n).direction s).acked_le
    rw [hs.consumed m hm, hs.accepted m hm, hs.closed m hm] at hsent
    rw [hs.acked n hn] at hacked
    right
    rw [hs.accepted n hn, hs.closed n hn]
    omega

end Settled

/-- **Everything is delivered.**  From some time on, the bytes accepted at one side are assembled
    at the other one, and the inbound stream there is closed when the outbound one is. -/
theorem eventually_delivered {cfg : Side → TCPConfig} {peer : Side → TCPPeer}
    {ops : ℕ → Side × PeerOp} {s : Side} (h : ∀ s, TCPPeer.new (cfg s) = .ok (peer s))
    (hroom : 0 < (cfg s.other).recvCapacity.toNat)
    (hregular : ∀ n, Regular (forever peer ops n) (ops n))
    (hbound : ∀ n, Bounded (forever peer ops n)) (hfair : Fair (forever peer ops) ops s) :
    ∀ᶠ n in atTop, Delivered (forever peer ops n s) (forever peer ops n s.other) := by
  obtain ⟨input, hnew, hstart⟩ := flowing_start h
  have hendless : Endless cfg input ops (forever peer ops) := by
    refine ⟨fun n => rfl, hnew, fun n => ?_, hbound, hregular⟩
    have hstep : ∀ c op, Flowing cfg input c → Regular c op → Bounded (c.step op) →
        Flowing cfg input (c.step op) :=
      fun c op hc hop hb => hc.step hnew hop.orderly hop.unforged hb
    exact Machine.trace_invariant hstep hregular hbound hstart n
  obtain ⟨N, hs⟩ := hendless.settles s
  exact eventually_atTop.mpr ⟨N, fun n hn => hs.delivered hendless hfair hroom hn⟩

/-- A small stream from its start to its end, with everything acknowledged and read. -/
def wholeOps : List (Side × PeerOp) :=
  let syn : TCPMessage :=
    { sender := { SYN := true, seqno := ⟨7⟩ }, receiver := { windowSize := 4 } }
  let synAck : TCPMessage :=
    { sender := { SYN := true, seqno := ⟨50⟩ }, receiver := { ackno := some ⟨8⟩, windowSize := 4 } }
  let data : TCPMessage :=
    { sender := { seqno := ⟨8⟩, payload := [1, 2], FIN := true }
      receiver := { ackno := some ⟨51⟩, windowSize := 4 } }
  let ack : TCPMessage :=
    { sender := { seqno := ⟨51⟩ }, receiver := { ackno := some ⟨11⟩, windowSize := 2 } }
  [(.a, .write [1, 2]), (.a, .close), (.a, .push), (.b, .receive syn), (.a, .receive synAck),
    (.b, .receive data), (.a, .receive ack), (.b, .read 2)]

/-- The peers of this connection. -/
def smallPeer (s : Side) : TCPPeer :=
  { cfg := smallConfig s
    sender := TCPSender.new (.empty (smallConfig s).sendCapacity) (smallConfig s).isn
      (smallConfig s).rtTimeout.toUInt64
    receiver := TCPReceiver.new (.new (.empty (smallConfig s).recvCapacity)) }

deriving instance DecidableEq for SenderRun, PeerRun

/-- In this run everything is delivered. -/
theorem eventually_delivered_whole :
    (∀ s, TCPPeer.new (smallConfig s) = .ok (smallPeer s)) ∧ ∀ᶠ n in atTop,
      Delivered (forever smallPeer (fun k => (wholeOps[k]?).getD (.a, .push)) n .a)
        (forever smallPeer (fun k => (wholeOps[k]?).getD (.a, .push)) n .b) := by
  have hnew : ∀ s, TCPPeer.new (smallConfig s) = .ok (smallPeer s) := fun s =>
    TCPPeer.new_eq_ok (by cases s <;> decide) (by cases s <;> decide)
  -- at the end, a push does nothing
  have hidle : step (Machine.run step (start smallPeer) wholeOps) (.a, .push)
      = Machine.run step (start smallPeer) wholeOps := by
    funext t
    cases t <;> decide +kernel
  have hrun := Machine.trace_eq_run_take hidle
  have hlast : ∀ n ≥ 8, (wholeOps[n]?).getD (.a, .push) = (.a, .push) ∧
      forever smallPeer (fun k => (wholeOps[k]?).getD (.a, .push)) n
        = Machine.run step (start smallPeer) wholeOps := by
    intro n hn
    rw [List.getElem?_eq_none hn]
    exact ⟨rfl, (hrun n).trans (by rw [List.take_of_length_le hn])⟩
  have hend : ∀ᶠ n in atTop, n ≥ 8 := eventually_ge_atTop 8
  refine ⟨hnew, eventually_delivered (s := .a) hnew (by decide) (fun n => ?_) (fun n => ?_) ?_⟩
  · rcases lt_or_ge n 8 with hlt | hge
    · rw [forever, hrun]
      refine ⟨?_, ?_⟩
      · interval_cases n <;> rintro msg heq <;> cases heq <;> decide
      · interval_cases n <;> exact trivial
    · obtain ⟨hop, -⟩ := hlast n hge
      rw [hop]
      exact ⟨fun msg heq => (by cases heq), trivial⟩
  · rw [forever, hrun]
    intro s
    rcases lt_or_ge n 8 with hlt | hge
    · interval_cases n <;> cases s <;> decide
    · rw [List.take_of_length_le hge]
      cases s <;> decide
  · constructor
    case pushes => exact (hend.mono fun n hn => (hlast n hn).1).frequently
    case expires =>
      refine (hend.mono fun n hn => .inl ?_).frequently
      rw [(hlast n hn).2]
      decide
    case reads =>
      refine (hend.mono fun n hn => ?_).frequently
      rw [(hlast n hn).2]
      decide
    case link =>
      refine fun t => fairLink_of_eventually_empty (hend.mono fun n hn => ?_)
      rw [(hlast n hn).1, (hlast n hn).2]
      refine Set.eq_empty_of_forall_notMem ?_
      rintro x ⟨rfl, hx⟩
      revert x
      decide

end Connection

end Minnow
