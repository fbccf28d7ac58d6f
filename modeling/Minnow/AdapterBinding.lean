import Minnow.TCPOverIP
import Minnow.Library.Machine

namespace Minnow

/-!
# An adapter binds to one connection

An adapter that listens takes the first SYN for its port as the start of a connection, and from
then on has nothing to do with other connections, whatever datagrams come.

* `TCPOverIPv4Adapter.Unwrapped` — what a call of `unwrap_tcp_in_ip` can do; `unwrapped` shows that
  there is nothing else;
* `TCPOverIPv4Adapter.run_bound` — an adapter that is bound stays bound;
* `TCPOverIPv4Adapter.binds_once` — an adapter that begins to listen binds once.

The conversions of the C library are taken to be inverse to each other.
-/

/-! ### Segments in datagrams -/

namespace IPv4Datagram

/-- The segment that is read from the payload. -/
def segment (d : IPv4Datagram) : TCPSegment :=
  TCPSegment.parsed {} d.header.pseudoChecksum (concat d.payload)

/-- The payload is a TCP segment, and its checksum is right. -/
structure CarriesSegment (d : IPv4Datagram) : Prop where
  proto_eq : d.header.proto = IPv4Header.PROTO_TCP
  verifies : TCPSegment.Verifies d.header.pseudoChecksum (concat d.payload)
  accepted : ¬ TCPSegment.Rejected d.header.pseudoChecksum (concat d.payload)

/-- The ends of the connection that the datagram is from, for the one that gets it. -/
def ends (d : IPv4Datagram) : FdAdapterConfig where
  source := { addr := d.header.dst, port := d.segment.udinfo.dstPort }
  destination := { addr := d.header.src, port := d.segment.udinfo.srcPort }

/-- The same addresses and the same ports. -/
structure SameConnection (d d' : IPv4Datagram) : Prop where
  src_eq : d.header.src = d'.header.src
  dst_eq : d.header.dst = d'.header.dst
  srcPort_eq : d.segment.udinfo.srcPort = d'.segment.udinfo.srcPort
  dstPort_eq : d.segment.udinfo.dstPort = d'.segment.udinfo.dstPort

/-- What a segment that parses says. -/
theorem parse_segment {d : IPv4Datagram} {seg : TCPSegment} {valid : Bool}
    (h : Minnow.parse (TCPSegment.parse {} d.header.pseudoChecksum) d.payload = .ok (seg, valid)) :
    seg = d.segment ∧ (valid = true →
      TCPSegment.Verifies d.header.pseudoChecksum (concat d.payload) ∧
        ¬ TCPSegment.Rejected d.header.pseudoChecksum (concat d.payload)) := by
  obtain ⟨rfl, rfl⟩ := Prod.mk.inj
    (parse_ok_of_gives (TCPSegment.gives_parse d.payload {} d.header.pseudoChecksum) h)
  refine ⟨rfl, fun hvalid => ?_⟩
  have haccepted : ¬ TCPSegment.Rejected d.header.pseudoChecksum (concat d.payload) := by
    simpa using hvalid
  exact ⟨not_not.mp fun hbad => haccepted (.inl hbad), haccepted⟩

end IPv4Datagram

namespace TCPOverIPv4Adapter

/-! ### One call -/

/-- The message that a call of `unwrap_tcp_in_ip` returns. -/
def returned (db : NetDb) (a : TCPOverIPv4Adapter) (d : IPv4Datagram) : Option TCPMessage :=
  match ((unwrapTcpInIp db d).run.run a).1 with
  | .ok message => message
  | .error _ => none

/-- The adapter after a call. -/
def after (db : NetDb) (a : TCPOverIPv4Adapter) (d : IPv4Datagram) : TCPOverIPv4Adapter :=
  ((unwrapTcpInIp db d).run.run a).2

/-- What a call can do. -/
inductive Unwrapped (db : NetDb) (a : TCPOverIPv4Adapter) (d : IPv4Datagram) :
    Except StdException (Option TCPMessage) × TCPOverIPv4Adapter → Prop
  | threw (e : StdException) : Unwrapped db a d (.error e, a)
  | nothing : Unwrapped db a d (.ok none, a)
  | bound (hlistening : a.listening = true) (hcarries : d.CarriesSegment)
      (hport : a.config.source.portOf db = .ok d.segment.udinfo.dstPort)
      (hsyn : d.segment.message.sender.SYN = true) (hrst : d.segment.message.sender.RST = false) :
      Unwrapped db a d (.ok (some d.segment.message), { config := d.ends, listening := false })
  | passed (hbound : a.listening = false) (hcarries : d.CarriesSegment)
      (hdst : a.config.source.ipv4Numeric = .ok d.header.dst)
      (hsrc : a.config.destination.ipv4Numeric = .ok d.header.src)
      (hdstPort : a.config.source.portOf db = .ok d.segment.udinfo.dstPort)
      (hsrcPort : a.config.destination.portOf db = .ok d.segment.udinfo.srcPort) :
      Unwrapped db a d (.ok (some d.segment.message), a)

variable {db : NetDb} {a : TCPOverIPv4Adapter} {d : IPv4Datagram}

/-- An attempt throws, or the call goes on with its result. -/
theorem Unwrapped.attempt {α : Type} {x : Except StdException α}
    {f : α → AdapterM (Option TCPMessage)}
    (h : ∀ v, x = .ok v → Unwrapped db a d ((f v).run.run a)) :
    Unwrapped db a d ((TCPOverIPv4Adapter.attempt x >>= f).run.run a) := by
  cases x with
  | error e => exact .threw e
  | ok v => exact h v rfl

/-- After a check that fails nothing is returned. -/
theorem Unwrapped.check {c : Prop} [Decidable c] {x : AdapterM (Option TCPMessage)}
    (h : ¬ c → Unwrapped db a d (x.run.run a)) :
    Unwrapped db a d ((if c then pure none else x).run.run a) := by
  split
  · exact .nothing
  · rename_i hc
    exact h hc

/-- Binding, with conversions that are inverse to each other. -/
theorem run_bindTo (hdb : db.Inverse) {α : Type}
    (hport : a.config.source.portOf db = .ok d.segment.udinfo.dstPort) (f : PUnit → AdapterM α) :
    (bindTo db d d.segment.udinfo.srcPort >>= f).run.run a
      = (f ⟨⟩).run.run { config := d.ends, listening := false } := by
  unfold bindTo
  rw [bind_assoc, run_get_bind, hport]
  simp only [hdb.readsBack]
  rfl

/-- The checks of the segment, which do not depend on whether the adapter listens. -/
theorem unwrapped_of_segment {f : TCPSegment × Bool → AdapterM (Option TCPMessage)}
    (hf : d.CarriesSegment → a.config.source.portOf db = .ok d.segment.udinfo.dstPort →
      Unwrapped db a d ((f (d.segment, true)).run.run a)) :
    Unwrapped db a d ((do
      if d.header.proto ≠ IPv4Header.PROTO_TCP then return none
      let read ← attempt <| parse (TCPSegment.parse {} d.header.pseudoChecksum) d.payload
      if ¬ read.2 then return none
      if read.1.udinfo.dstPort ≠ (← attempt ((← get).config.source.portOf db)) then return none
      f read : AdapterM (Option TCPMessage)).run.run a) := by
  apply Unwrapped.check
  intro hproto
  apply Unwrapped.attempt
  rintro ⟨seg, valid⟩ hparse
  obtain ⟨rfl, hvalid⟩ := IPv4Datagram.parse_segment hparse
  apply Unwrapped.check
  intro hvalid'
  obtain rfl : valid = true := not_not.mp hvalid'
  obtain ⟨hverifies, haccepted⟩ := hvalid rfl
  rw [run_get_bind]
  apply Unwrapped.attempt
  intro port hport
  apply Unwrapped.check
  intro hsame
  rw [← not_not.mp hsame] at hport
  exact hf ⟨not_not.mp hproto, hverifies, haccepted⟩ hport

/-- **Calls of an adapter that listens.** -/
theorem unwrapped_of_listening (hdb : db.Inverse) (h : a.listening = true) (d : IPv4Datagram) :
    Unwrapped db a d ((unwrapTcpInIp db d).run.run a) := by
  simp only [unwrapTcpInIp, run_get_bind, h, not_true_eq_false, if_false]
  apply unwrapped_of_segment
  intro hcarries hport
  rw [run_get_bind, if_pos h]
  split
  · rename_i hsyn
    -- the destination is the peer now, so that the last check passes
    have hpeer : d.ends.destination.portOf db = .ok d.segment.udinfo.srcPort :=
      hdb.readsPorts.portOf_eq ⟨rfl, rfl⟩
    rw [run_bindTo hdb hport, run_get_bind]
    dsimp only
    rw [hpeer, run_attempt_bind, if_neg (not_not.mpr rfl)]
    exact .bound h hcarries hport hsyn.1 (by simpa using hsyn.2)
  · exact .nothing

/-- **Calls of an adapter that is bound.** -/
theorem unwrapped_of_bound (h : a.listening = false) (d : IPv4Datagram) :
    Unwrapped db a d ((unwrapTcpInIp db d).run.run a) := by
  simp only [unwrapTcpInIp, run_get_bind, h, Bool.false_eq_true, not_false_eq_true, if_true]
  apply Unwrapped.attempt
  intro dst hdst
  apply Unwrapped.check
  intro hdst'
  rw [run_get_bind, if_pos (by simp [h]), run_get_bind]
  apply Unwrapped.attempt
  intro src hsrc
  apply Unwrapped.check
  intro hsrc'
  apply unwrapped_of_segment
  intro hcarries hport
  rw [run_get_bind, if_neg (by simp [h]), run_get_bind]
  apply Unwrapped.attempt
  intro port hpeer
  apply Unwrapped.check
  intro hsame
  rw [← not_not.mp hdst'] at hdst
  rw [← not_not.mp hsrc'] at hsrc
  rw [← not_not.mp hsame] at hpeer
  exact .passed h hcarries hdst hsrc hport hpeer

/-- **What a call can do.** -/
theorem unwrapped (hdb : db.Inverse) (a : TCPOverIPv4Adapter) (d : IPv4Datagram) :
    Unwrapped db a d ((unwrapTcpInIp db d).run.run a) := by
  cases h : a.listening with
  | true => exact unwrapped_of_listening hdb h d
  | false => exact unwrapped_of_bound h d

/-- **A call that returns nothing** leaves the adapter as it is. -/
theorem after_of_nothing (hdb : db.Inverse) (h : returned db a d = none) :
    after db a d = a := by
  have hcase := unwrapped hdb a d
  unfold returned at h
  unfold after
  generalize (unwrapTcpInIp db d).run.run a = result at hcase h
  cases hcase with
  | threw | nothing | passed => rfl
  | bound => cases h

/-- The first message. -/
theorem returned_of_listening (hdb : db.Inverse) (h : a.listening = true)
    {message : TCPMessage} (hreturned : returned db a d = some message) :
    message = d.segment.message ∧ d.CarriesSegment ∧
      a.config.source.portOf db = .ok d.segment.udinfo.dstPort ∧
      message.sender.SYN = true ∧ message.sender.RST = false ∧
      after db a d = { config := d.ends, listening := false } := by
  have hcase := unwrapped hdb a d
  unfold returned at hreturned
  unfold after
  generalize (unwrapTcpInIp db d).run.run a = result at hcase hreturned
  cases hcase with
  | threw | nothing => cases hreturned
  | bound _ hcarries hport hsyn hrst =>
    obtain rfl := Option.some.inj hreturned
    exact ⟨rfl, hcarries, hport, hsyn, hrst, rfl⟩
  | passed hbound =>
    rw [h] at hbound
    cases hbound

/-- **A SYN for the port** of an adapter that listens is returned. -/
theorem returned_of_syn (hdb : db.Inverse) (h : a.listening = true) {seg : TCPSegment}
    (hproto : d.header.proto = IPv4Header.PROTO_TCP)
    (hparse : parse (TCPSegment.parse {} d.header.pseudoChecksum) d.payload = .ok (seg, true))
    (hport : a.config.source.portOf db = .ok seg.udinfo.dstPort)
    (hsyn : seg.message.sender.SYN = true) (hrst : seg.message.sender.RST = false) :
    returned db a d = some seg.message := by
  obtain ⟨rfl, -⟩ := IPv4Datagram.parse_segment hparse
  have hpeer : d.ends.destination.portOf db = .ok d.segment.udinfo.srcPort :=
    hdb.readsPorts.portOf_eq ⟨rfl, rfl⟩
  have hrun : (unwrapTcpInIp db d).run.run a
      = (.ok (some d.segment.message), { config := d.ends, listening := false }) := by
    simp only [unwrapTcpInIp, run_get_bind, run_attempt_bind, run_bindTo hdb hport, h, hproto,
      hparse, hport, hsyn, hrst, hpeer, ne_eq, not_true_eq_false, not_false_eq_true,
      Bool.false_eq_true, and_self, if_true, if_false]
    rfl
  rw [returned, hrun]

/-- A message for an adapter that is bound. -/
theorem returned_of_bound (hdb : db.Inverse) {d d₀ : IPv4Datagram} {message : TCPMessage}
    (h : returned db { config := d₀.ends, listening := false } d = some message) :
    message = d.segment.message ∧ d.CarriesSegment ∧ d.SameConnection d₀ ∧
      after db { config := d₀.ends, listening := false } d
        = { config := d₀.ends, listening := false } := by
  have hcase := unwrapped hdb { config := d₀.ends, listening := false } d
  unfold returned at h
  unfold after
  generalize (unwrapTcpInIp db d).run.run _ = result at hcase h
  cases hcase with
  | threw | nothing => cases h
  | bound hlistening => cases hlistening
  | passed _ hcarries hdst hsrc hdstPort hsrcPort =>
    obtain rfl := Option.some.inj h
    have hsource : d₀.ends.source.IsIPv4 := ⟨rfl, rfl⟩
    have hdestination : d₀.ends.destination.IsIPv4 := ⟨rfl, rfl⟩
    rw [hsource.ipv4Numeric_eq] at hdst
    rw [hdestination.ipv4Numeric_eq] at hsrc
    rw [hdb.readsPorts.portOf_eq hsource] at hdstPort
    rw [hdb.readsPorts.portOf_eq hdestination] at hsrcPort
    refine ⟨rfl, hcarries, ?_, rfl⟩
    exact ⟨(Except.ok.inj hsrc).symm, (Except.ok.inj hdst).symm, (Except.ok.inj hsrcPort).symm,
      (Except.ok.inj hdstPort).symm⟩

/-! ### Runs -/

/-- The messages that the calls for some datagrams return, each with its datagram. -/
def messages (db : NetDb) : TCPOverIPv4Adapter → List IPv4Datagram →
    List (IPv4Datagram × TCPMessage)
  | _, [] => []
  | a, d :: ds =>
    match returned db a d with
    | none => messages db (after db a d) ds
    | some message => (d, message) :: messages db (after db a d) ds

/-- **An adapter that is bound** stays so, and returns messages of its connection only. -/
theorem run_bound (hdb : db.Inverse) (d₀ : IPv4Datagram) (ds : List IPv4Datagram) :
    Machine.run (after db) { config := d₀.ends, listening := false } ds
        = { config := d₀.ends, listening := false } ∧
      ∀ x ∈ messages db { config := d₀.ends, listening := false } ds,
        x.2 = x.1.segment.message ∧ x.1.CarriesSegment ∧ x.1.SameConnection d₀ := by
  induction ds with
  | nil => exact ⟨rfl, by simp [messages]⟩
  | cons d ds ih =>
    rw [Machine.run_cons, messages]
    cases hreturned : returned db { config := d₀.ends, listening := false } d with
    | none =>
      rw [after_of_nothing hdb hreturned]
      exact ih
    | some message =>
      obtain ⟨hmessage, hcarries, hsame, hafter⟩ := returned_of_bound hdb hreturned
      rw [hafter]
      refine ⟨ih.1, ?_⟩
      rw [List.forall_mem_cons]
      exact ⟨⟨hmessage, hcarries, hsame⟩, ih.2⟩

/-- **An adapter that listens binds once**, whatever datagrams come: a call that returns nothing
    leaves the adapter as it is; the first message is in a valid segment for the port of the
    adapter, with SYN and without RST, and fixes the ends of the connection; and all messages
    behind it are in valid segments with the same addresses and ports. -/
theorem binds_once (hdb : db.Inverse) (h : a.listening = true) (ds : List IPv4Datagram) :
    (∀ before d, before ++ [d] <+: ds →
        returned db (Machine.run (after db) a before) d = none →
        Machine.run (after db) a (before ++ [d]) = Machine.run (after db) a before) ∧
      (messages db a ds = [] ∧ Machine.run (after db) a ds = a ∨
        ∃ d₀ rest, messages db a ds = (d₀, d₀.segment.message) :: rest ∧ d₀.CarriesSegment ∧
          a.config.source.portOf db = .ok d₀.segment.udinfo.dstPort ∧
          d₀.segment.message.sender.SYN = true ∧ d₀.segment.message.sender.RST = false ∧
          Machine.run (after db) a ds = {
            config := {
              source := { addr := d₀.header.dst, port := d₀.segment.udinfo.dstPort }
              destination := { addr := d₀.header.src, port := d₀.segment.udinfo.srcPort } }
            listening := false } ∧
          ∀ x ∈ rest, x.2 = x.1.segment.message ∧ x.1.CarriesSegment ∧
            x.1.SameConnection d₀) := by
  refine ⟨?_, ?_⟩
  · intro before d _ hnothing
    rw [Machine.run_concat, after_of_nothing hdb hnothing]
  · induction ds with
    | nil => exact .inl ⟨rfl, rfl⟩
    | cons d ds ih =>
      rw [Machine.run_cons, messages]
      cases hreturned : returned db a d with
      | none =>
        rw [after_of_nothing hdb hreturned]
        exact ih
      | some message =>
        -- the adapter is bound from here on
        obtain ⟨rfl, hcarries, hport, hsyn, hrst, hafter⟩ := returned_of_listening hdb h hreturned
        obtain ⟨hrun, hmessages⟩ := run_bound hdb d ds
        rw [hafter]
        exact .inr ⟨d, _, rfl, hcarries, hport, hsyn, hrst, hrun, hmessages⟩

/-- A server at port 80 of any address. -/
def server : TCPOverIPv4Adapter :=
  { config := { source := { addr := 0, port := 80 } }, listening := true }

/-- The first segment from port 4000 of some host to port 80 of 10.0.0.2. -/
def synFrom (addr : UInt32) : IPv4Datagram :=
  datagramFor
    { source := { addr, port := 4000 }, destination := { addr := 0x0a000002, port := 80 } }
    { sender := { seqno := ⟨137⟩, SYN := true } }

/-- A server that is contacted by 10.0.0.1, and then by 10.0.0.3. -/
theorem binds_once_two :
    Machine.run (after .numeric) server [synFrom 0x0a000001, synFrom 0x0a000003] = {
      config := {
        source := { addr := 0x0a000002, port := 80 }
        destination := { addr := 0x0a000001, port := 4000 } }
      listening := false } := by
  have hparse : parse (TCPSegment.parse {} (synFrom 0x0a000001).header.pseudoChecksum)
      (synFrom 0x0a000001).payload = .ok ((synFrom 0x0a000001).segment, true) := by
    decide +kernel
  have hport : server.config.source.portOf .numeric
      = .ok (synFrom 0x0a000001).segment.udinfo.dstPort :=
    NetDb.numeric_inverse.readsPorts.portOf_eq ⟨rfl, rfl⟩
  have hlistening : server.listening = true := rfl
  have hreturned := returned_of_syn NetDb.numeric_inverse hlistening rfl hparse hport
    (by decide +kernel) (by decide +kernel)
  obtain ⟨-, ⟨hnone, -⟩ | ⟨d₀, rest, hfirst, -, -, -, -, hrun, -⟩⟩ :=
    binds_once NetDb.numeric_inverse hlistening [synFrom 0x0a000001, synFrom 0x0a000003]
  · simp [messages, hreturned] at hnone
  · obtain rfl : synFrom 0x0a000001 = d₀ := by
      simp only [messages, hreturned] at hfirst
      exact (Prod.mk.inj (List.cons.inj hfirst).1).1
    rw [hrun]
    decide +kernel

end TCPOverIPv4Adapter

end Minnow
