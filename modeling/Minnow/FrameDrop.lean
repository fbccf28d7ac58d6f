import Minnow.InterfaceSpec

namespace Minnow

/-!
# Frames that do not parse

`recv_frame` goes on with what a parser left behind, whether or not the parser noted an error.

* `Unparseable` — parsing the message or the header in the payload ends with an error noted, or
  throws;
* `Effect.Drops` — nothing was changed and nothing transmitted, and nothing undefined happened;
* `NetworkInterface.Inert` — what is left of the frame happens to say nothing new;
* `NetworkInterface.recvFrame_drops_iff` — an unparseable frame is without effect if and only if
  it is inert.
-/

open Function (update)

/-! ### What does not parse -/

/-- Parsing ended with an error, or threw.  Nothing is said of undefined behaviour. -/
def Failed {α : Type} : Except StdException (α × Bool) → Prop
  | .ok (_, success) => success = false
  | .error e => ¬ e.IsUndefined

instance {α : Type} : DecidablePred (@Failed α)
  | .ok (_, success) => inferInstanceAs (Decidable (success = false))
  | .error e => inferInstanceAs (Decidable (¬ e.IsUndefined))

/-- The parser that is for the payload of the frame fails.  For a datagram this is decided by its
    header (`failed_datagram_iff`), before the payload is moved out. -/
def Unparseable (frame : EthernetFrame) : Prop :=
  (frame.header.type = EthernetHeader.TYPE_ARP ∧
    Failed (parse (ARPMessage.parse {}) frame.payload)) ∨
  (frame.header.type = EthernetHeader.TYPE_IPv4 ∧
    Failed (parse (IPv4Header.parse {}) frame.payload))

instance : DecidablePred Unparseable := fun frame => by
  unfold Unparseable
  infer_instance

/-- Where parsing a datagram is defined, it fails if and only if parsing its header does. -/
theorem failed_datagram_iff {payload : List Ref}
    (hdefined : ∀ e, parse (IPv4Datagram.parse {}) payload = .error e → ¬ e.IsUndefined) :
    Failed (parse (IPv4Datagram.parse {}) payload)
      ↔ Failed (parse (IPv4Header.parse {}) payload) := by
  unfold parse at hdefined ⊢
  rcases Parser.new_cases payload with ⟨⟨p, hnew, hread⟩, -⟩ | ⟨⟨what, hnew⟩, -⟩
  swap
  · rw [hnew]
    exact Iff.rfl
  simp only [hnew, bind, Except.bind] at hdefined ⊢
  rcases IPv4Header.gives_parse payload {} p hread with ⟨p', hrun, -, herr⟩ | ⟨e, hrun, hempty⟩
  · -- the flag stays as the header has left it
    rcases IPv4Datagram.parse_spec hread with ⟨e, hrun', hempty⟩ | hspec
    · exact absurd hempty.1.1 (hdefined e (by rw [hrun']))
    split at hspec
    · exact absurd ⟨_, rfl⟩ (hdefined _ (by rw [hspec]))
    · obtain ⟨d, q, hrun', -, -, -, -, herr'⟩ := hspec
      have hflag : p'.error = q.error := herr.trans herr'.symm
      rw [hrun, hrun']
      show (!q.error) = false ↔ (!p'.error) = false
      rw [hflag]
  · have hrun' : (IPv4Datagram.parse {}).run p = .error e := by
      rw [IPv4Datagram.parse, StateT.run_bind, hrun]
      rfl
    exact absurd hempty.1.1 (hdefined e (by rw [hrun']))

/-! ### What has no effect -/

/-- Nothing was changed, and nothing transmitted. -/
structure Effect.Leaves (e : Effect) (n : NetworkInterface) : Prop where
  arpTable : e.interface.arpTable = n.arpTable
  pendingDatagrams : e.interface.pendingDatagrams = n.pendingDatagrams
  pendingArpRequests : e.interface.pendingArpRequests = n.pendingArpRequests
  datagramsReceived : e.interface.datagramsReceived = n.datagramsReceived
  transmitted : e.transmitted = []

/-- Nothing undefined happened. -/
def Effect.Defined (e : Effect) : Prop := ∀ x ∈ e.thrown, ¬ x.IsUndefined

/-- Nothing was changed, nothing transmitted, and nothing undefined happened. -/
structure Effect.Drops (e : Effect) (n : NetworkInterface) : Prop extends e.Leaves n where
  defined : e.Defined

namespace NetworkInterface

/-- A message that says nothing new: its sender is in the table, with this address and no time
    elapsed; it is no request for this interface; and if it is a reply, nothing waits for it, or
    the first datagram that does is not of version 4. -/
structure InertMessage (n : NetworkInterface) (m : ARPMessage) : Prop where
  learned : n.arpTable m.senderIpAddress
    = some { ethernetAddr := m.senderEthernetAddress, timeElapsed := 0 }
  request : m.opcode = ARPMessage.OPCODE_REQUEST → n.ipAddress.ipv4Numeric ≠ .ok m.targetIpAddress
  reply : m.opcode = ARPMessage.OPCODE_REPLY →
    (n.pendingDatagrams m.senderIpAddress = none ∧
      n.pendingArpRequests m.senderIpAddress = none) ∨
    ∃ dgram rest, n.pendingDatagrams m.senderIpAddress = some (dgram :: rest) ∧
      dgram.header.ver ≠ 4

/-- What is left of a frame is a message that says nothing new, or an exception comes before it is
    looked at. -/
def Inert (n : NetworkInterface) (frame : EthernetFrame) : Prop :=
  (∃ r ∈ frame.payload, r.owned = false) ∨
  (frame.header.type = EthernetHeader.TYPE_ARP ∧
    n.InertMessage (ARPMessage.ofBytes {} (concat frame.payload)))

/-! ### The parts of `recv_frame` -/

variable (n : NetworkInterface) (m : ARPMessage)

/-- What was transmitted stays so. -/
theorem transmitted_andThen_ne_nil {e : Effect} (h : e.transmitted ≠ [])
    (f : NetworkInterface → Effect) : (e.andThen f).transmitted ≠ [] := by
  unfold Effect.andThen
  split
  · exact h
  · exact List.append_ne_nil_of_left_ne_nil h _

/-- **Releasing has no effect** for other messages than replies, when nothing waits, and when the
    first datagram makes the loop throw. -/
theorem release_leaves_iff :
    (n.release m).Leaves n ↔ (m.opcode = ARPMessage.OPCODE_REPLY →
      (n.pendingDatagrams m.senderIpAddress = none ∧
        n.pendingArpRequests m.senderIpAddress = none) ∨
      ∃ dgram rest, n.pendingDatagrams m.senderIpAddress = some (dgram :: rest) ∧
        dgram.header.ver ≠ 4) := by
  unfold release sendPending
  split
  swap
  · rename_i hnot
    exact iff_of_true ⟨rfl, rfl, rfl, rfl, rfl⟩ fun h => absurd h hnot
  rename_i hreply
  rw [forall_prop_of_true hreply]
  cases hpend : n.pendingDatagrams m.senderIpAddress with
  | none =>
    -- only the request is erased
    constructor
    · intro h
      have hreq := congrFun h.pendingArpRequests m.senderIpAddress
      refine .inl ⟨rfl, ?_⟩
      rw [← hreq]
      exact Function.update_self _ _ _
    · rintro (⟨-, hreq⟩ | ⟨_, _, h, -⟩)
      · exact ⟨rfl, rfl, Function.update_eq_self_iff.mpr hreq.symm, rfl, rfl⟩
      · cases h
  | some queue =>
    cases queue with
    | nil =>
      -- an empty queue is erased
      refine iff_of_false (fun h => ?_) ?_
      · have herased := congrFun h.pendingDatagrams m.senderIpAddress
        rw [hpend] at herased
        simp [sendQueue, Effect.andThen] at herased
      · rintro (⟨h, -⟩ | ⟨_, _, h, -⟩) <;> cases h
    | cons dgram rest =>
      rcases n.datagramFrame_cases m.senderEthernetAddress dgram with
        ⟨hver, frame, hframe, -⟩ | ⟨hver, hframe⟩
      · refine iff_of_false (fun h => ?_) ?_
        · have hsent : (n.sendQueue m (dgram :: rest)).transmitted ≠ [] := by
            rw [sendQueue, hframe]
            exact List.cons_ne_nil _ _
          exact transmitted_andThen_ne_nil (transmitted_andThen_ne_nil hsent _) _ h.transmitted
        · rintro (⟨h, -⟩ | ⟨_, _, h, hne⟩)
          · cases h
          · cases h
            exact hne hver
      · refine iff_of_true ?_ (.inr ⟨dgram, rest, rfl, hver⟩)
        have hthrow : n.sendQueue m (dgram :: rest)
            = { interface := n, thrown := some (.runtimeError "wrong IP version") } := by
          rw [sendQueue, hframe]
          rfl
        show (((n.sendQueue m (dgram :: rest)).andThen _).andThen _).Leaves n
        rw [hthrow]
        exact ⟨rfl, rfl, rfl, rfl, rfl⟩

/-- **A message has no effect** if and only if it says nothing new. -/
theorem message_leaves_iff :
    (((n.learn m).answer m).andThen fun n => n.release m).Leaves n ↔ n.InertMessage m := by
  obtain ⟨hinterface, htransmitted, -, hthrown⟩ := (n.learn m).answer_spec m
  have hrelease := (n.learn m).release_leaves_iff m
  obtain ⟨pending, requests, hframe⟩ := (n.learn m).release_interface m
  have hlearn : (n.learn m).arpTable = n.arpTable ↔ n.arpTable m.senderIpAddress
      = some { ethernetAddr := m.senderEthernetAddress, timeElapsed := 0 } :=
    Function.update_eq_self_iff.trans eq_comm
  -- the effects of the three parts do not make up for each other
  have hparts : (((n.learn m).answer m).andThen fun n => n.release m).Leaves n ↔
      (n.learn m).arpTable = n.arpTable ∧ ((n.learn m).answer m).transmitted = [] ∧
        ((n.learn m).release m).Leaves (n.learn m) := by
    cases hthrow : ((n.learn m).answer m).thrown with
    | some e =>
      have hreq : m.opcode = ARPMessage.OPCODE_REQUEST :=
        (hthrown.mp (by rw [hthrow]; exact Option.some_ne_none e)).1
      have hquiet : ((n.learn m).release m).Leaves (n.learn m) := by
        refine hrelease.mpr fun hreply => ?_
        rw [hreq] at hreply
        cases hreply
      simp only [Effect.andThen, hthrow]
      constructor
      · intro h
        exact ⟨hinterface ▸ h.arpTable, h.transmitted, hquiet⟩
      · rintro ⟨htable, hnone, -⟩
        exact ⟨by rw [hinterface]; exact htable, by rw [hinterface]; rfl, by rw [hinterface]; rfl,
          by rw [hinterface]; rfl, hnone⟩
    | none =>
      simp only [Effect.andThen, hthrow, hinterface]
      constructor
      · intro h
        obtain ⟨hanswer, hnone⟩ := List.append_eq_nil_iff.mp h.transmitted
        refine ⟨?_, hanswer, ?_, h.pendingDatagrams, h.pendingArpRequests, ?_, hnone⟩
        · have htable := h.arpTable
          dsimp only at htable
          rw [hframe] at htable
          exact htable
        · rw [hframe]
        · rw [hframe]
      · rintro ⟨htable, hanswer, h⟩
        exact ⟨h.arpTable.trans htable, h.pendingDatagrams, h.pendingArpRequests,
          h.datagramsReceived, List.append_eq_nil_iff.mpr ⟨hanswer, h.transmitted⟩⟩
  rw [hparts, hlearn, htransmitted, hrelease]
  constructor
  · rintro ⟨hlearned, hrequest, hreply⟩
    exact ⟨hlearned, hrequest, hreply⟩
  · rintro ⟨hlearned, hrequest, hreply⟩
    exact ⟨hlearned, hrequest, hreply⟩

/-! ### Exceptions apart from undefined behaviour -/

/-- An exception in place of a value, or what comes of the value. -/
theorem defined_tryWith {α : Type} {n : NetworkInterface} {x : Except StdException α}
    {f : α → Effect} (hx : ∀ e, x = .error e → ¬ e.IsUndefined) (hf : ∀ a, (f a).Defined) :
    (Effect.tryWith n x f).Defined := by
  cases x with
  | error e =>
    rintro _ ⟨⟩
    exact hx e rfl
  | ok a => exact hf a

/-- One part of a method after the other. -/
theorem defined_andThen {e : Effect} {f : NetworkInterface → Effect} (he : e.Defined)
    (hf : ∀ n, (f n).Defined) : (e.andThen f).Defined := by
  unfold Effect.andThen
  split
  · exact he
  · exact hf e.interface

/-- What does not throw is defined. -/
theorem defined_quiet {e : Effect} (h : e.thrown = none) : e.Defined := by
  rintro x hx
  rw [h] at hx
  cases hx

/-- The exceptions of an interface are its own. -/
theorem defined_ipv4Numeric (a : Address) :
    ∀ e, a.ipv4Numeric = .error e → ¬ e.IsUndefined := by
  unfold Address.ipv4Numeric
  split
  · rintro _ ⟨⟩ ⟨_, ⟨⟩⟩
  · rintro _ ⟨⟩

/-- Serializing a datagram may throw, but is defined. -/
theorem defined_datagramFrame (n : NetworkInterface) (dst : EthernetAddress) (d : IPv4Datagram) :
    ∀ e, n.datagramFrame dst d = .error e → ¬ e.IsUndefined := by
  rcases n.datagramFrame_cases dst d with ⟨-, frame, hframe, -⟩ | ⟨-, hframe⟩
  · rw [hframe]
    rintro _ ⟨⟩
  · rw [hframe]
    rintro _ ⟨⟩ ⟨_, ⟨⟩⟩

/-- Sending a queue is defined. -/
theorem defined_sendQueue (queue : List IPv4Datagram) : (n.sendQueue m queue).Defined := by
  induction queue generalizing n with
  | nil => exact defined_quiet rfl
  | cons dgram rest ih =>
    rw [sendQueue]
    exact defined_tryWith (n.defined_datagramFrame _ dgram) fun frame => ih _

/-- Sending what waits for a next hop is defined. -/
theorem defined_release : (n.release m).Defined := by
  unfold release sendPending
  split
  · refine defined_andThen ?_ fun n => defined_quiet rfl
    split
    · exact defined_quiet rfl
    · exact defined_andThen (n.defined_sendQueue m _) fun n => defined_quiet rfl
  · exact defined_quiet rfl

/-- Answering a request is defined. -/
theorem defined_answer : (n.answer m).Defined := by
  unfold answer
  split
  · refine defined_tryWith (defined_ipv4Numeric n.ipAddress) fun ip => ?_
    split
    · obtain ⟨frame, hframe, -⟩ := n.arpFrame_eq_ok m.senderEthernetAddress (m := {
          opcode := ARPMessage.OPCODE_REPLY
          senderEthernetAddress := n.ethernetAddress
          senderIpAddress := ip
          targetEthernetAddress := m.senderEthernetAddress
          targetIpAddress := m.senderIpAddress }) rfl
      rw [hframe]
      exact defined_quiet rfl
    · exact defined_quiet rfl
  · exact defined_quiet rfl

/-- **Hearing a message** is defined, whatever it says. -/
theorem defined_hear : (((n.learn m).answer m).andThen fun n => n.release m).Defined :=
  defined_andThen ((n.learn m).defined_answer m) fun n => n.defined_release m

/-! ### Unparseable frames -/

variable {n m}

/-- A borrowed buffer makes the parser throw before anything is done; what is done otherwise is in
    terms of the parser. -/
theorem drops_iff_of_read {payload : List Ref} {f : Parser → Effect} {P : Prop}
    (h : ∀ p : Parser, Parser.new payload = .ok p → p.Read payload [] →
      ((f p).Drops n ↔ P)) :
    (Effect.tryWith n (Parser.new payload) f).Drops n ↔ (∃ r ∈ payload, r.owned = false) ∨ P := by
  rcases Parser.new_cases payload with ⟨⟨p, hnew, hread⟩, hnone⟩ | ⟨⟨what, hnew⟩, hborrowed⟩
  · rw [or_iff_right hnone, hnew]
    exact h p hnew hread
  · rw [hnew]
    refine iff_of_true ⟨⟨rfl, rfl, rfl, rfl, rfl⟩, ?_⟩ (.inl hborrowed)
    rintro _ ⟨⟩ ⟨_, ⟨⟩⟩

/-- When a payload that does not parse as a message has no effect. -/
theorem recvArp_drops_iff {payload : List Ref}
    (hfails : Failed (parse (ARPMessage.parse {}) payload)) :
    (n.recvArp payload).Drops n ↔
      (∃ r ∈ payload, r.owned = false) ∨
        n.InertMessage (ARPMessage.ofBytes {} (concat payload)) := by
  refine drops_iff_of_read fun p hnew hread => ?_
  rcases ARPMessage.gives_parse {} p hread with ⟨p', hrun, -⟩ | ⟨e, hrun, hundef, -⟩
  · simp only [Effect.tryWith, hrun]
    rw [← n.message_leaves_iff]
    exact ⟨fun h => h.toLeaves, fun h => ⟨h, n.defined_hear _⟩⟩
  · -- a run of which nothing is said has not failed
    unfold parse at hfails
    rw [hnew] at hfails
    simp only [bind, Except.bind, hrun, Failed] at hfails
    exact absurd hundef hfails

/-- A datagram is queued, whatever is left of it, or parsing it is undefined. -/
theorem recvDatagram_drops_iff {payload : List Ref} :
    (n.recvDatagram payload).Drops n ↔ ∃ r ∈ payload, r.owned = false := by
  refine (drops_iff_of_read (P := False) fun p hnew hread => ?_).trans (or_iff_left id)
  rcases IPv4Datagram.parse_cases hread with ⟨e, hrun, hundef⟩ | ⟨d, p', hrun⟩
  · simp only [Effect.tryWith, hrun]
    exact iff_of_false (fun h => h.defined e rfl hundef) id
  · simp only [Effect.tryWith, hrun]
    refine iff_of_false (fun h => ?_) id
    have hqueued := h.datagramsReceived
    simp at hqueued

/-- **An unparseable frame for the interface is without effect** if and only if it is inert. -/
theorem recvFrame_drops_iff {frame : EthernetFrame}
    (hdst : frame.header.dst = n.ethernetAddress ∨ frame.header.dst = ETHERNET_BROADCAST)
    (hfails : Unparseable frame) : (n.recvFrame frame).Drops n ↔ n.Inert frame := by
  rcases hfails with ⟨htype, hfails⟩ | ⟨htype, -⟩
  · rw [recvFrame_eq_recvArp hdst htype, recvArp_drops_iff hfails, Inert, and_iff_right htype]
  · have hne : frame.header.type ≠ EthernetHeader.TYPE_ARP := by
      rw [htype]
      decide
    have hother : ¬ (frame.header.type = EthernetHeader.TYPE_ARP ∧
        n.InertMessage (ARPMessage.ofBytes {} (concat frame.payload))) := fun h => hne h.1
    rw [recvFrame_eq_recvDatagram hdst htype, recvDatagram_drops_iff, Inert, or_iff_left hother]

/-- The addresses of an interface are those of another. -/
def SameAddresses (n n' : NetworkInterface) : Prop :=
  n'.ethernetAddress = n.ethernetAddress ∧ n'.ipAddress = n.ipAddress

/-- The queues have no part in the addresses. -/
theorem SameButQueues.sameAddresses {n n' : NetworkInterface} (h : n.SameButQueues n') :
    n.SameAddresses n' := by
  obtain ⟨pending, requests, rfl⟩ := h
  exact ⟨rfl, rfl⟩

/-- Receiving a frame leaves the addresses. -/
theorem sameAddresses_recvFrame (frame : EthernetFrame) :
    n.SameAddresses (n.recvFrame frame).interface := by
  rcases n.recvFrame_cases frame with
    ⟨thrown, hrecv⟩ | ⟨-, -, hrecv⟩ | ⟨d, success, -, -, hrecv⟩
  · rw [hrecv]
    exact ⟨rfl, rfl⟩
  · rw [hrecv]
    exact (n.hear_interface frame.arpMessage).sameAddresses
  · rw [hrecv]
    exact ⟨rfl, rfl⟩

/-- No operation changes the addresses. -/
theorem sameAddresses_act (op : InterfaceOp) : n.SameAddresses (op.act n).interface := by
  cases op with
  | sendDatagram dgram nextHop => exact (n.sendDatagram_interface dgram nextHop).sameAddresses
  | recvFrame frame => exact sameAddresses_recvFrame frame
  | tick msSinceLastTick => exact ⟨rfl, rfl⟩
  | popReceived => exact ⟨rfl, rfl⟩

/-- A frame without effect leaves the interface as it is. -/
theorem recvFrame_eq_of_leaves {frame : EthernetFrame} (h : (n.recvFrame frame).Leaves n) :
    (n.recvFrame frame).interface = n := by
  obtain ⟨hethernet, hip⟩ := sameAddresses_recvFrame (n := n) frame
  obtain ⟨htable, hpending, hrequests, hreceived, -⟩ := h
  cases hinterface : (n.recvFrame frame).interface
  rw [hinterface] at hethernet hip htable hpending hrequests hreceived
  cases n
  simp_all

end NetworkInterface

/-! ### Runs -/

namespace InterfaceRun

open NetworkInterface

variable (ethernetAddress : EthernetAddress) (ipAddress : Address)

/-- **Step.**  An interface keeps its address. -/
theorem addresses_step (r : InterfaceRun) (op : InterfaceOp)
    (h : r.interface.ethernetAddress = ethernetAddress) :
    (r.step op).interface.ethernetAddress = ethernetAddress :=
  (sameAddresses_act (n := r.interface) op).1.trans h

/-- Frames for the interface that do not parse. -/
def unparseable : InterfaceOp → Bool
  | .recvFrame frame => decide ((frame.header.dst = ethernetAddress ∨
      frame.header.dst = ETHERNET_BROADCAST) ∧ Unparseable frame)
  | _ => false

/-- An inert frame that does not parse leaves interface and transmissions as they are. -/
theorem step_eq_of_inert {r : InterfaceRun} {op : InterfaceOp}
    (haddress : r.interface.ethernetAddress = ethernetAddress)
    (hop : unparseable ethernetAddress op = true)
    (hinert : ∀ frame, op = .recvFrame frame → r.interface.Inert frame) : r.step op = r := by
  cases op with
  | recvFrame frame =>
    obtain ⟨hdst, hfails⟩ := of_decide_eq_true hop
    rw [← haddress] at hdst
    have hleaves := ((recvFrame_drops_iff hdst hfails).mpr (hinert frame rfl)).toLeaves
    have hinterface := recvFrame_eq_of_leaves hleaves
    have hnone := hleaves.transmitted
    cases r
    simp only [step, InterfaceOp.act, hinterface, hnone, List.append_nil]
  | sendDatagram | tick | popReceived => cases hop

/-- **Frames that do not parse** are dropped without effect, in any state that a run reaches, if
    and only if they are inert; in a run where all of them are, they may as well not have been
    received. -/
theorem unparseable_dropped_iff (ops : List InterfaceOp) :
    (∀ frame : EthernetFrame,
      frame.header.dst = ethernetAddress ∨ frame.header.dst = ETHERNET_BROADCAST →
      Unparseable frame →
      (((of ethernetAddress ipAddress ops).interface.recvFrame frame).Drops
          (of ethernetAddress ipAddress ops).interface ↔
        (of ethernetAddress ipAddress ops).interface.Inert frame)) ∧
    (Machine.Meets step
      (fun r op => unparseable ethernetAddress op = true →
        ∀ frame, op = .recvFrame frame → r.interface.Inert frame)
      { interface := { ethernetAddress, ipAddress } } ops →
      of ethernetAddress ipAddress (ops.filter fun op => !unparseable ethernetAddress op)
        = of ethernetAddress ipAddress ops) := by
  have haddress : (of ethernetAddress ipAddress ops).interface.ethernetAddress = ethernetAddress :=
    Machine.run_invariant (P := fun r : InterfaceRun =>
      r.interface.ethernetAddress = ethernetAddress) (addresses_step ethernetAddress) rfl ops
  constructor
  · intro frame hdst hfails
    rw [← haddress] at hdst
    exact recvFrame_drops_iff hdst hfails
  · intro hinert
    have haddresses := Machine.meets_invariant (P := fun r : InterfaceRun =>
      r.interface.ethernetAddress = ethernetAddress) (addresses_step ethernetAddress)
      (s := { interface := { ethernetAddress, ipAddress } }) rfl ops
    -- each frame that is left out would have left the state as it was
    refine ((haddresses.and hinert).mono ?_).run_filter
    rintro r op ⟨hr, hop⟩ hdropped
    have hun : unparseable ethernetAddress op = true := by simpa using hdropped
    exact step_eq_of_inert ethernetAddress hr hun (hop hun)

/-- After a reply from `0.0.0.0`, one byte of an ARP message is dropped without effect: the message
    left of it has just this sender. -/
theorem unparseable_dropped_after_reply :
    let ethernetAddress : EthernetAddress := ⟨2, 0, 0, 0, 0, 1⟩
    let ipAddress : Address := { addr := 0x0a000001 }
    let header : EthernetHeader := { dst := ETHERNET_BROADCAST, type := EthernetHeader.TYPE_ARP }
    let reply : InterfaceOp := .recvFrame { header, payload := [{ get :=
      [0, 1, 8, 0, 6, 4, 0, 2, 0, 0, 0, 0, 0, 0, 0, 0, 0, 0, 2, 0, 0, 0, 0, 1, 10, 0, 0, 1] }] }
    let garbage : EthernetFrame := { header, payload := [{ get := [0] }] }
    ((of ethernetAddress ipAddress [reply]).interface.recvFrame garbage).Drops
        (of ethernetAddress ipAddress [reply]).interface ∧
      of ethernetAddress ipAddress
          ([reply, .recvFrame garbage].filter fun op => !unparseable ethernetAddress op)
        = of ethernetAddress ipAddress [reply, .recvFrame garbage] := by
  intro ethernetAddress ipAddress header reply garbage
  have hlearned : (of ethernetAddress ipAddress [reply]).interface.arpTable 0
      = some { ethernetAddr := {}, timeElapsed := 0 } := by decide +kernel
  have hleft : ARPMessage.ofBytes {} (concat garbage.payload) = { hardwareType := 1 } := by
    decide +kernel
  -- the sender of what is left is in the table already, with a new entry
  have hinert : ∀ n : NetworkInterface,
      n.arpTable 0 = some { ethernetAddr := {}, timeElapsed := 0 } → n.Inert garbage := by
    intro n hn
    refine .inr ⟨rfl, ?_⟩
    rw [hleft]
    exact ⟨hn, fun h => absurd h (by decide), fun h => absurd h (by decide)⟩
  constructor
  · exact ((unparseable_dropped_iff ethernetAddress ipAddress [reply]).1 garbage (.inr rfl)
      (by decide)).mpr (hinert _ hlearned)
  · have hparses : unparseable ethernetAddress reply = false := by decide +kernel
    refine (unparseable_dropped_iff ethernetAddress ipAddress [reply, .recvFrame garbage]).2 ?_
    show Machine.Meets step _ _ ([reply] ++ [.recvFrame garbage])
    rw [Machine.meets_concat]
    refine ⟨⟨fun h => ?_, trivial⟩, fun _ frame hframe => ?_⟩
    · rw [hparses] at h
      cases h
    · cases hframe
      show (of ethernetAddress ipAddress [reply]).interface.Inert garbage
      exact hinert _ hlearned

/-- **Garbage is taken in**: a new interface learns a sender from one byte of an ARP message, and
    queues a datagram for one byte of a header. -/
theorem unparseable_taken :
    (¬ ∀ (ethernetAddress : EthernetAddress) (ipAddress : Address) (ops : List InterfaceOp)
      (frame : EthernetFrame),
      frame.header.dst = ethernetAddress ∨ frame.header.dst = ETHERNET_BROADCAST →
      Unparseable frame → frame.header.type = EthernetHeader.TYPE_ARP →
      ((of ethernetAddress ipAddress ops).interface.recvFrame frame).Leaves
        (of ethernetAddress ipAddress ops).interface) ∧
    ¬ ∀ (ethernetAddress : EthernetAddress) (ipAddress : Address) (ops : List InterfaceOp)
      (frame : EthernetFrame),
      frame.header.dst = ethernetAddress ∨ frame.header.dst = ETHERNET_BROADCAST →
      Unparseable frame → frame.header.type = EthernetHeader.TYPE_IPv4 →
      ((of ethernetAddress ipAddress ops).interface.recvFrame frame).Leaves
        (of ethernetAddress ipAddress ops).interface := by
  constructor
  · intro h
    have hleaves := h ⟨2, 0, 0, 0, 0, 1⟩ { addr := 0x0a000001 } []
      { header := { dst := ETHERNET_BROADCAST, type := EthernetHeader.TYPE_ARP }
        payload := [{ get := [0] }] } (.inr rfl) (by decide) rfl
    have htable := congrFun hleaves.arpTable 0
    revert htable
    decide
  · intro h
    have hleaves := h ⟨2, 0, 0, 0, 0, 1⟩ { addr := 0x0a000001 } []
      { header := { dst := ETHERNET_BROADCAST, type := EthernetHeader.TYPE_IPv4 }
        payload := [{ get := [0] }] } (.inr rfl) (by decide) rfl
    have hreceived := hleaves.datagramsReceived
    revert hreceived
    decide

end InterfaceRun

end Minnow
