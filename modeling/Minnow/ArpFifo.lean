import Minnow.InterfaceSpec
import Minnow.Library.Ledger

namespace Minnow

/-!
# The datagrams for one next hop

What `send_datagram` is given for a next hop is transmitted in order, or waits, or is dropped when
there has been no answer for 5000 ms, unless the address of the next hop is learned from a request:
this lets go of nothing that waits.

* `HopRun` — an interface with all that concerns one next hop; it goes through the states of the
  interface alone (`interface_of`), and each frame is counted for some next hop
  (`exists_frames_step`);
* `NetworkInterface.Stranded` — datagrams wait for a next hop whose address is known;
* `HopRun.Accounts` — a ledger that says what became of each datagram, and `inv_step`, by which
  there is one after each step that spares what is stranded;
* `HopRun.accounted` — the order is kept in every run of such steps.
-/

open Function (update)

/-- What becomes of a datagram. -/
inductive Fate where
  | transmitted
  | expired
deriving DecidableEq, Repr

instance (n : NetworkInterface) (frame : EthernetFrame) : Decidable (n.IsFor frame) :=
  inferInstanceAs (Decidable (_ ∨ _))

/-- The frames with datagrams. -/
def Effect.datagramFrames (e : Effect) : List EthernetFrame :=
  e.transmitted.filter fun frame => frame.header.type = EthernetHeader.TYPE_IPv4

/-- An interface with all that concerns one next hop. -/
structure HopRun where
  interface : NetworkInterface
  /-- the datagrams that `send_datagram` was given for it -/
  submitted : List IPv4Datagram := []
  /-- the frames with datagrams that were transmitted for it -/
  frames : List EthernetFrame := []
  /-- the time since the last request for it, when no message has come from it since -/
  quiet : Option ℕ := none
  /-- the datagrams that ticks have removed after 5000 ms of quiet -/
  expired : List IPv4Datagram := []

namespace HopRun

section

variable (ip : UInt32)

/-- A frame is an ARP message to the interface from the next hop. -/
def IsFrom (n : NetworkInterface) (frame : EthernetFrame) : Prop :=
  n.IsFor frame ∧ frame.header.type = EthernetHeader.TYPE_ARP ∧
    frame.arpMessage.senderIpAddress = ip

instance (n : NetworkInterface) (frame : EthernetFrame) : Decidable (IsFrom ip n frame) :=
  inferInstanceAs (Decidable (_ ∧ _))

/-- The datagrams are for the next hop that `send_datagram` was called for, or that a message came
    from. -/
def step (x : HopRun) (op : InterfaceOp) : HopRun :=
  let e := op.act x.interface
  match op with
  | .sendDatagram dgram nextHop =>
    if nextHop.ipv4Numeric.toOption = some ip then
      { x with
        interface := e.interface
        submitted := x.submitted ++ [dgram]
        frames := x.frames ++ e.datagramFrames
        -- a request is sent
        quiet :=
          if e.transmitted.any fun frame => frame.header.type = EthernetHeader.TYPE_ARP then some 0
          else x.quiet }
    else { x with interface := e.interface }
  | .recvFrame frame =>
    if IsFrom ip x.interface frame then
      { x with
        interface := e.interface
        frames := x.frames ++ e.datagramFrames
        quiet := none }
    else { x with interface := e.interface }
  | .tick ms =>
    let quiet := x.quiet.map (· + ms.toNat)
    let removed :=
      if (e.interface.pendingDatagrams ip).isNone then (x.interface.pendingDatagrams ip).getD []
      else []
    { x with
      interface := e.interface
      quiet
      expired := if quiet.any (5000 ≤ ·) then x.expired ++ removed else x.expired }
  | .popReceived => { x with interface := e.interface }

/-- The run of a new interface through a sequence of operations. -/
def of (ethernetAddress : EthernetAddress) (ipAddress : Address) (ops : List InterfaceOp) :
    HopRun :=
  Machine.run (step ip) { interface := { ethernetAddress, ipAddress } } ops

/-- The interface goes the way of its operations. -/
theorem interface_step (x : HopRun) (op : InterfaceOp) :
    (step ip x op).interface = (op.act x.interface).interface := by
  cases op with
  | sendDatagram => exact apply_ite HopRun.interface _ _ _ |>.trans (ite_self _)
  | recvFrame => exact apply_ite HopRun.interface _ _ _ |>.trans (ite_self _)
  | tick | popReceived => rfl

/-- The interface goes through the same states as without the account. -/
theorem interface_of (ethernetAddress : EthernetAddress) (ipAddress : Address)
    (ops : List InterfaceOp) :
    (of ip ethernetAddress ipAddress ops).interface
      = (InterfaceRun.of ethernetAddress ipAddress ops).interface := by
  have hother : (InterfaceRun.of ethernetAddress ipAddress ops).interface
      = Machine.run (fun n op => (InterfaceOp.act n op).interface) { ethernetAddress, ipAddress }
        ops :=
    Machine.run_map InterfaceRun.interface (fun _ _ => rfl) _ ops
  rw [hother]
  exact Machine.run_map HopRun.interface (interface_step ip) _ ops

/-- No frame is left out: what an operation transmits is counted for some next hop. -/
theorem exists_frames_step {n : NetworkInterface} {op : InterfaceOp} {frame : EthernetFrame}
    (hmem : frame ∈ (op.act n).transmitted) :
    ∃ ip, ∀ x : HopRun, x.interface = n →
      (step ip x op).frames = x.frames ++ (op.act n).datagramFrames := by
  -- a send is for its next hop, and a message for its sender; nothing else transmits
  cases op with
  | sendDatagram dgram nextHop =>
    cases hhop : nextHop.ipv4Numeric with
    | error e =>
      have hnone : (n.sendDatagram dgram nextHop).transmitted = [] := by
        unfold NetworkInterface.sendDatagram
        rw [hhop]
        rfl
      rw [InterfaceOp.act, hnone] at hmem
      cases hmem
    | ok ip =>
      refine ⟨ip, ?_⟩
      rintro x rfl
      exact congrArg HopRun.frames (if_pos (by rw [hhop]; rfl))
  | recvFrame frame' =>
    by_cases harp : n.IsFor frame' ∧ frame'.header.type = EthernetHeader.TYPE_ARP
    · refine ⟨frame'.arpMessage.senderIpAddress, ?_⟩
      rintro x rfl
      exact congrArg HopRun.frames (if_pos ⟨harp.1, harp.2, rfl⟩)
    · have hnone : (n.recvFrame frame').transmitted = [] := by
        rcases n.recvFrame_cases frame' with
          ⟨thrown, hrecv⟩ | ⟨hmine, htype, -⟩ | ⟨d, success, -, -, hrecv⟩
        · rw [hrecv]
        · exact absurd ⟨hmine, htype⟩ harp
        · rw [hrecv]
      rw [InterfaceOp.act, hnone] at hmem
      cases hmem
  | tick | popReceived => cases hmem

end

/-! ### What concerns another next hop -/

end HopRun

namespace NetworkInterface

variable {n n' : NetworkInterface} {ip : UInt32}

/-- Two interfaces are in the same state as far as a next hop is concerned. -/
structure SameFor (ip : UInt32) (n n' : NetworkInterface) : Prop where
  arpTable : n'.arpTable ip = n.arpTable ip
  pendingDatagrams : n'.pendingDatagrams ip = n.pendingDatagrams ip
  pendingArpRequests : n'.pendingArpRequests ip = n.pendingArpRequests ip

/-- Nothing has happened. -/
theorem SameFor.refl (n : NetworkInterface) : SameFor ip n n := ⟨rfl, rfl, rfl⟩

/-- Sending to another next hop. -/
theorem sameFor_sendDatagram (dgram : IPv4Datagram) {nextHop : Address}
    (hne : nextHop.ipv4Numeric ≠ .ok ip) :
    SameFor ip n (n.sendDatagram dgram nextHop).interface := by
  cases hhop : nextHop.ipv4Numeric with
  | error e =>
    unfold sendDatagram
    rw [hhop]
    exact .refl n
  | ok ip' =>
    have hip : ip ≠ ip' := by
      rintro rfl
      exact hne hhop
    cases hentry : n.arpTable ip' with
    | some entry =>
      rw [(n.sendDatagram_entry hhop hentry dgram).1]
      exact .refl n
    | none =>
      rcases n.sendDatagram_unknown hhop hentry dgram with
        ⟨hinterface, -, -⟩ | ⟨frame, -, -, hsend⟩
      · rw [hinterface]
        exact ⟨rfl, Function.update_of_ne hip _ _, rfl⟩
      · rw [hsend]
        exact ⟨rfl, Function.update_of_ne hip _ _, Function.update_of_ne hip _ _⟩

/-- A message from another next hop. -/
theorem sameFor_hear {m : ARPMessage} (hne : m.senderIpAddress ≠ ip) :
    SameFor ip n (n.hear m).interface := by
  -- all maps are updated at the sender only
  have hlearn : SameFor ip n (n.learn m) := ⟨Function.update_of_ne hne.symm _ _, rfl, rfl⟩
  by_cases hreply : m.opcode = ARPMessage.OPCODE_REPLY
  · obtain ⟨sent, left, -, -, ⟨-, hhear⟩ | ⟨-, hhear⟩⟩ := n.hear_reply_cases m hreply
    · rw [hhear]
      exact ⟨hlearn.arpTable, Function.update_of_ne hne.symm _ _,
        Function.update_of_ne hne.symm _ _⟩
    · rw [hhear]
      exact ⟨hlearn.arpTable, Function.update_of_ne hne.symm _ _, rfl⟩
  · rw [(n.hear_other m hreply).1]
    exact hlearn

/-- A frame is well formed: its payload parses as what it is the payload of. -/
structure WellFormed (frame : EthernetFrame) : Prop where
  arp : frame.header.type = EthernetHeader.TYPE_ARP →
    ∃ m, parse (ARPMessage.parse {}) frame.payload = .ok (m, true)
  ipv4 : frame.header.type = EthernetHeader.TYPE_IPv4 →
    ∃ d, parse (IPv4Datagram.parse {}) frame.payload = .ok (d, true)

/-- A frame that is not a message from the next hop. -/
theorem sameFor_recvFrame {frame : EthernetFrame} (hnot : ¬ HopRun.IsFrom ip n frame) :
    SameFor ip n (n.recvFrame frame).interface := by
  rcases n.recvFrame_cases frame with
    ⟨thrown, hrecv⟩ | ⟨hmine, htype, hrecv⟩ | ⟨d, success, -, -, hrecv⟩
  · rw [hrecv]
    exact .refl n
  · rw [hrecv]
    exact sameFor_hear fun h => hnot ⟨hmine, htype, h⟩
  · rw [hrecv]
    exact ⟨rfl, rfl, rfl⟩

/-- Datagrams are stranded when they wait for a next hop whose address is known. -/
def Stranded (n : NetworkInterface) (ip : UInt32) : Prop :=
  (n.arpTable ip).isSome ∧ (n.pendingDatagrams ip).isSome

end NetworkInterface

namespace HopRun

/-! ### What becomes of the datagrams -/

variable {ip : UInt32} {x : HopRun}

/-- **A ledger** says what has become of each of the datagrams that `send_datagram` was given: it
    was transmitted, in its turn, or it was removed after 5000 ms of quiet, or it still waits.  What
    waits is copied. -/
structure Accounts (ip : UInt32) (x : HopRun) (l : Ledger IPv4Datagram Fate) : Prop where
  submitted : l.items = x.submitted
  transmitted : List.Forall₂ IPv4Datagram.Carried (l.settledAs .transmitted) x.frames
  expired : (l.settledAs .expired).map IPv4Datagram.copy = x.expired
  waiting : l.waiting.map IPv4Datagram.copy = (x.interface.pendingDatagrams ip).getD []

/-- What is kept as long as nothing that is stranded is overtaken or dropped. -/
structure Inv (ip : UInt32) (x : HopRun) : Prop where
  accounts : ∃ l, Accounts ip x l
  version : ∀ d, x.interface.Waits d → d.header.ver = 4
  /-- while a request is out there are datagrams that wait -/
  request : (x.interface.pendingArpRequests ip).isSome → (x.interface.pendingDatagrams ip).isSome
  /-- while the address is not known nothing has been heard since the request -/
  quiet : x.interface.arpTable ip = none → ∀ time, x.interface.pendingArpRequests ip = some time →
    ∃ t, x.quiet = some t ∧ time.toNat ≤ t

/-- Stranded datagrams are not overtaken by one that is sent, nor dropped by a tick. -/
def Spares (ip : UInt32) (x : HopRun) (op : InterfaceOp) : Prop :=
  x.interface.Stranded ip →
    match op with
    | .sendDatagram _ nextHop => nextHop.ipv4Numeric ≠ .ok ip
    | .tick ms => ¬ x.interface.EntryExpires ms ip ∧ ¬ x.interface.RequestExpires ms ip
    | _ => True

/-- An operation that is of no concern to the next hop. -/
theorem Inv.sameFor (h : Inv ip x) {n : NetworkInterface} (hsame : x.interface.SameFor ip n)
    (hver : ∀ d, n.Waits d → d.header.ver = 4) : Inv ip { x with interface := n } where
  accounts := by
    obtain ⟨l, hl⟩ := h.accounts
    refine ⟨l, hl.submitted, hl.transmitted, hl.expired, ?_⟩
    rw [hl.waiting, hsame.pendingDatagrams]
  version := hver
  request := by
    rw [hsame.pendingArpRequests, hsame.pendingDatagrams]
    exact h.request
  quiet := by
    rw [hsame.arpTable, hsame.pendingArpRequests]
    exact h.quiet

/-- Without a request there is not much to be kept. -/
theorem Inv.of_no_request (haccounts : ∃ l, Accounts ip x l)
    (hver : ∀ d, x.interface.Waits d → d.header.ver = 4)
    (hnone : x.interface.pendingArpRequests ip = none) : Inv ip x where
  accounts := haccounts
  version := hver
  request hsome := by
    rw [hnone] at hsome
    cases hsome
  quiet _ time htime := by
    rw [hnone] at htime
    cases htime

/-- What waits in the ledger was copied: its copies are carried if and only if it is. -/
theorem forall₂_carried_copy {queue : List IPv4Datagram} {frames : List EthernetFrame} :
    List.Forall₂ IPv4Datagram.Carried (queue.map IPv4Datagram.copy) frames ↔
      List.Forall₂ IPv4Datagram.Carried queue frames := by
  rw [List.forall₂_map_left_iff]
  exact ⟨List.Forall₂.imp fun _ _ => IPv4Datagram.carried_copy.mp,
    List.Forall₂.imp fun _ _ => IPv4Datagram.carried_copy.mpr⟩

/-- ARP messages are no datagrams. -/
theorem datagramFrames_of_arp {e : Effect}
    (h : ∀ frame ∈ e.transmitted, frame.header.type = EthernetHeader.TYPE_ARP) :
    e.datagramFrames = [] := by
  refine List.filter_eq_nil_iff.mpr fun frame hframe => ?_
  rw [h frame hframe]
  decide

/-- Frames that carry datagrams. -/
theorem datagramFrames_of_carried {e : Effect} {queue : List IPv4Datagram}
    (h : List.Forall₂ IPv4Datagram.Carried queue e.transmitted) :
    e.datagramFrames = e.transmitted := by
  refine List.filter_eq_self.mpr fun frame hframe => ?_
  obtain ⟨d, -, hcarried⟩ := exists_of_forall₂ h.flip hframe
  rw [hcarried.type_eq]
  decide

/-! ### Entries of the ledger -/

section

variable {l : Ledger IPv4Datagram Fate} {dgram : IPv4Datagram}

/-- All that waits is transmitted. -/
theorem Accounts.transmit (hl : Accounts ip x l) {n : NetworkInterface}
    (hnone : n.pendingDatagrams ip = none) {frames : List EthernetFrame}
    (hframes : List.Forall₂ IPv4Datagram.Carried ((x.interface.pendingDatagrams ip).getD []) frames)
    (quiet : Option ℕ) :
    Accounts ip { x with interface := n, frames := x.frames ++ frames, quiet }
      (l.settle .transmitted) where
  submitted := by rw [Ledger.items_settle, hl.submitted]
  transmitted := by
    rw [Ledger.settledAs_settle_self]
    refine List.rel_append hl.transmitted (forall₂_carried_copy.mp ?_)
    rwa [hl.waiting]
  expired := by rw [Ledger.settledAs_settle_of_ne l (by decide), hl.expired]
  waiting := by rw [Ledger.waiting_settle, hnone]; rfl

/-- All that waits is removed after 5000 ms of quiet. -/
theorem Accounts.expire (hl : Accounts ip x l) {n : NetworkInterface}
    (hnone : n.pendingDatagrams ip = none) (quiet : Option ℕ) :
    Accounts ip { x with
        interface := n
        quiet
        expired := x.expired ++ (x.interface.pendingDatagrams ip).getD [] }
      (l.settle .expired) where
  submitted := by rw [Ledger.items_settle, hl.submitted]
  transmitted := by
    rw [Ledger.settledAs_settle_of_ne l (by decide)]
    exact hl.transmitted
  expired := by rw [Ledger.settledAs_settle_self, List.map_append, hl.expired, hl.waiting]
  waiting := by rw [Ledger.waiting_settle, hnone]; rfl

/-- A datagram is put behind those that wait. -/
theorem Accounts.enter (hl : Accounts ip x l) {n : NetworkInterface}
    (hqueue : n.pendingDatagrams ip
      = some ((x.interface.pendingDatagrams ip).getD [] ++ [dgram.copy])) (quiet : Option ℕ) :
    Accounts ip { x with interface := n, submitted := x.submitted ++ [dgram], quiet }
      (l.enter dgram) where
  submitted := by rw [Ledger.items_enter, hl.submitted]
  transmitted := hl.transmitted
  expired := hl.expired
  waiting := by
    rw [Ledger.waiting_enter, List.map_append, hl.waiting, hqueue]
    rfl

/-- A datagram is transmitted at once, when none waits. -/
theorem Accounts.pass (hl : Accounts ip x l) (hnone : x.interface.pendingDatagrams ip = none)
    {frame : EthernetFrame} (hcarried : dgram.Carried frame) :
    Accounts ip { x with submitted := x.submitted ++ [dgram], frames := x.frames ++ [frame] }
      ((l.enter dgram).settle .transmitted) where
  submitted := by rw [Ledger.items_settle, Ledger.items_enter, hl.submitted]
  transmitted := by
    -- the new datagram is the only one to be settled
    have hempty : l.waiting = [] := by
      have hwaiting := hl.waiting
      rw [hnone] at hwaiting
      exact List.map_eq_nil_iff.mp hwaiting
    rw [Ledger.settledAs_settle_self, Ledger.settledAs_enter, Ledger.waiting_enter, hempty]
    exact List.rel_append hl.transmitted (.cons hcarried .nil)
  expired := by
    rw [Ledger.settledAs_settle_of_ne _ (by decide), Ledger.settledAs_enter, hl.expired]
  waiting := by rw [Ledger.waiting_settle, hnone]; rfl

/-- Nothing becomes of any datagram. -/
theorem Accounts.keep (hl : Accounts ip x l) {n : NetworkInterface}
    (hqueue : (n.pendingDatagrams ip).getD [] = (x.interface.pendingDatagrams ip).getD [])
    (quiet : Option ℕ) : Accounts ip { x with interface := n, quiet } l where
  submitted := hl.submitted
  transmitted := hl.transmitted
  expired := hl.expired
  waiting := by rw [hl.waiting, hqueue]

end

/-! ### Steps -/

/-- **Sending to the next hop.** -/
theorem inv_sendDatagram {dgram : IPv4Datagram} {nextHop : Address}
    (hhop : nextHop.ipv4Numeric = .ok ip) (hspares : Spares ip x (.sendDatagram dgram nextHop))
    (hver : dgram.header.ver = 4) (h : Inv ip x) :
    Inv ip (step ip x (.sendDatagram dgram nextHop)) := by
  have hmine : nextHop.ipv4Numeric.toOption = some ip := by rw [hhop]; rfl
  have hstep : step ip x (.sendDatagram dgram nextHop) = _ := if_pos hmine
  have hversion : ∀ d, (x.interface.sendDatagram dgram nextHop).interface.Waits d →
      d.header.ver = 4 :=
    (NetworkInterface.within_sendDatagram h.version hver hver nextHop).waits
  obtain ⟨l, hl⟩ := h.accounts
  cases hentry : x.interface.arpTable ip with
  | some entry =>
    -- nothing waits, or it would be stranded
    have hnone : x.interface.pendingDatagrams ip = none := by
      by_contra hsome
      refine hspares ⟨?_, Option.isSome_iff_ne_none.mpr hsome⟩ hhop
      rw [hentry]
      rfl
    obtain ⟨frame, hcarried, hsend⟩ := x.interface.sendDatagram_known hhop hentry hver
    have hframes : Effect.datagramFrames { interface := x.interface, transmitted := [frame] }
        = [frame] := datagramFrames_of_carried (.cons hcarried.toCarried .nil)
    have hne : ¬ ([frame].any fun frame => frame.header.type = EthernetHeader.TYPE_ARP) := by
      simp [hcarried.type_eq, EthernetHeader.TYPE_IPv4, EthernetHeader.TYPE_ARP]
    rw [hstep]
    simp only [InterfaceOp.act, hsend, hframes, if_neg hne]
    exact ⟨⟨_, hl.pass hnone hcarried.toCarried⟩, h.version, h.request, h.quiet⟩
  | none =>
    have hqueue : update x.interface.pendingDatagrams ip
        (some ((x.interface.pendingDatagrams ip).getD [] ++ [dgram.copy])) ip
          = some ((x.interface.pendingDatagrams ip).getD [] ++ [dgram.copy]) :=
      Function.update_self _ _ _
    rcases x.interface.sendDatagram_unknown hhop hentry dgram with
      ⟨hinterface, hnothing, -⟩ | ⟨frame, hrequest, -, hsend⟩
    · -- a request is out already, or there is no address to send one from
      rw [hinterface] at hversion
      rw [hstep]
      simp only [InterfaceOp.act, hinterface, Effect.datagramFrames, hnothing, List.filter_nil,
        List.append_nil, List.any_nil, Bool.false_eq_true, if_false]
      exact ⟨⟨_, hl.enter hqueue x.quiet⟩, hversion, fun _ => Option.isSome_of_eq_some hqueue,
        h.quiet⟩
    · -- the request has been out for no time
      have hframes : Effect.datagramFrames (x.interface.sendDatagram dgram nextHop) = [] := by
        refine datagramFrames_of_arp fun frame' hframe' => ?_
        rw [hsend] at hframe'
        rw [List.mem_singleton.mp hframe']
        exact hrequest.type_eq
      rw [hsend] at hframes hversion
      rw [hstep]
      simp only [InterfaceOp.act, hsend, hframes, List.append_nil, List.any_cons, hrequest.type_eq,
        decide_true, Bool.true_or, if_true]
      refine ⟨⟨_, hl.enter hqueue (some 0)⟩, hversion, fun _ => Option.isSome_of_eq_some hqueue, ?_⟩
      intro _ time htime
      have hzero : update x.interface.pendingArpRequests ip (some 0) ip = some 0 :=
        Function.update_self _ _ _
      obtain rfl := Option.some.inj (hzero.symm.trans htime)
      exact ⟨0, rfl, le_rfl⟩

/-- **A message from the next hop.**  A reply lets go of what waits, and forgets the request. -/
theorem inv_hear {frame : EthernetFrame} (hfrom : IsFrom ip x.interface frame)
    (hwf : NetworkInterface.WellFormed frame) (h : Inv ip x) :
    Inv ip (step ip x (.recvFrame frame)) := by
  have hstep : step ip x (.recvFrame frame) = _ := if_pos hfrom
  have hversion : ∀ d, (x.interface.recvFrame frame).interface.Waits d → d.header.ver = 4 :=
    (NetworkInterface.within_recvFrame h.version frame).waits
  obtain ⟨hmine, htype, rfl⟩ := hfrom
  obtain ⟨m, hparse⟩ := hwf.arp htype
  have hrecv := NetworkInterface.recvFrame_arp_of_parse hmine htype hparse
  generalize frame.arpMessage = m at *
  obtain ⟨l, hl⟩ := h.accounts
  rw [hrecv] at hversion
  rw [hstep]
  simp only [InterfaceOp.act, hrecv]
  by_cases hreply : m.opcode = ARPMessage.OPCODE_REPLY
  · obtain ⟨frames, hframes, hhear⟩ := x.interface.hear_reply m hreply
      (NetworkInterface.waits_getD h.version m.senderIpAddress)
    have hdatagrams : (x.interface.hear m).datagramFrames = frames := by
      rw [hhear]
      exact datagramFrames_of_carried (hframes.imp fun _ _ h => h.toCarried)
    have hqueue : (x.interface.hear m).interface.pendingDatagrams m.senderIpAddress = none := by
      rw [hhear]
      exact Function.update_self _ _ _
    have hrequest : (x.interface.hear m).interface.pendingArpRequests m.senderIpAddress = none := by
      rw [hhear]
      exact Function.update_self _ _ _
    have htransmit := hl.transmit hqueue (hframes.imp fun _ _ h => h.toCarried) none
    rw [hdatagrams]
    exact .of_no_request ⟨_, htransmit⟩ hversion hrequest
  · obtain ⟨hlearn, harp⟩ := x.interface.hear_other m hreply
    rw [datagramFrames_of_arp fun frame hframe => (harp frame hframe).type_eq, List.append_nil]
    rw [hlearn] at hversion ⊢
    refine ⟨⟨l, hl.keep (n := x.interface.learn m) rfl none⟩, hversion, h.request, ?_⟩
    -- the address is known now
    intro hnone
    exact absurd hnone (by simp [NetworkInterface.learn])

/-- The code's sum may wrap around, but then it is less. -/
theorem toNat_add_le (time ms : UInt64) : (time + ms).toNat ≤ time.toNat + ms.toNat := by
  rw [UInt64.toNat_add]
  exact Nat.mod_le _ _

/-- A tick that removes nothing. -/
theorem step_tick_of_same {ms : UInt64}
    (hsame : (x.interface.tick ms).pendingDatagrams ip = x.interface.pendingDatagrams ip) :
    step ip x (.tick ms) = { x with
      interface := x.interface.tick ms
      quiet := x.quiet.map (· + ms.toNat) } := by
  have hremoved : (if (x.interface.pendingDatagrams ip).isNone then
      (x.interface.pendingDatagrams ip).getD [] else []) = [] := by
    cases x.interface.pendingDatagrams ip <;> rfl
  unfold step
  simp only [InterfaceOp.act, hsame, hremoved, List.append_nil, ite_self]

/-- A tick that drops nothing: both clocks go on, and that of the code is not ahead. -/
theorem inv_tick_of_stays {ms : UInt64} (hentry : ¬ x.interface.EntryExpires ms ip)
    (hrequest : ¬ x.interface.RequestExpires ms ip) (h : Inv ip x) :
    Inv ip (step ip x (.tick ms)) := by
  have hversion : ∀ d, (x.interface.tick ms).Waits d → d.header.ver = 4 :=
    fun d hd => h.version d (NetworkInterface.waits_tick hd)
  obtain ⟨-, htable, -, hreqs, -, hstays⟩ := x.interface.tick_spec ms ip
  obtain ⟨l, hl⟩ := h.accounts
  have hsame := hstays hentry hrequest
  rw [step_tick_of_same hsame]
  refine ⟨⟨l, hl.keep (by rw [hsame]) _⟩, hversion, ?_, ?_⟩
  · intro hsome
    rw [hreqs hrequest, Option.isSome_map] at hsome
    rw [hsame]
    exact h.request hsome
  · intro hunknown time htime
    rw [htable hentry, Option.map_eq_none_iff] at hunknown
    rw [hreqs hrequest, Option.map_eq_some_iff] at htime
    obtain ⟨time₀, htime₀, rfl⟩ := htime
    obtain ⟨t, hquiet, hle⟩ := h.quiet hunknown time₀ htime₀
    refine ⟨t + ms.toNat, by rw [hquiet]; rfl, ?_⟩
    exact (toNat_add_le time₀ ms).trans (Nat.add_le_add_right hle _)

/-- A tick by which the request expires while the address is not known: the queue is dropped after
    5000 ms of quiet. -/
theorem inv_tick_of_expires {ms : UInt64} (hunknown : x.interface.arpTable ip = none)
    (hrequest : x.interface.RequestExpires ms ip) (h : Inv ip x) :
    Inv ip (step ip x (.tick ms)) := by
  have hversion : ∀ d, (x.interface.tick ms).Waits d → d.header.ver = 4 :=
    fun d hd => h.version d (NetworkInterface.waits_tick hd)
  obtain ⟨-, -, hreq, -, hgone, -⟩ := x.interface.tick_spec ms ip
  obtain ⟨l, hl⟩ := h.accounts
  have hnone := hgone (.inr hrequest)
  have hnoreq := hreq hrequest
  obtain ⟨time, htime, hlimit⟩ := hrequest
  obtain ⟨t, hquiet, hle⟩ := h.quiet hunknown time htime
  have hlong : 5000 ≤ t + ms.toNat := by
    have hsum := toNat_add_le time ms
    have hlimit' : 5000 ≤ (time + ms).toNat := hlimit
    omega
  have hstep : step ip x (.tick ms) = { x with
      interface := x.interface.tick ms
      quiet := some (t + ms.toNat)
      expired := x.expired ++ (x.interface.pendingDatagrams ip).getD [] } := by
    unfold step
    simp only [InterfaceOp.act, hquiet, hnone, Option.map_some, Option.any_some,
      decide_eq_true hlong, Option.isNone_none, if_true]
  rw [hstep]
  exact .of_no_request ⟨_, hl.expire hnone _⟩ hversion hnoreq

/-- **Time.**  What is not stranded is dropped with its request. -/
theorem inv_tick {ms : UInt64} (hspares : Spares ip x (.tick ms)) (h : Inv ip x) :
    Inv ip (step ip x (.tick ms)) := by
  obtain ⟨-, -, -, hreq', hgone, -⟩ := x.interface.tick_spec ms ip
  by_cases hexpires : x.interface.EntryExpires ms ip ∨ x.interface.RequestExpires ms ip
  · have hloose : ¬ x.interface.Stranded ip := fun hstranded =>
      hexpires.elim (hspares hstranded).1 (hspares hstranded).2
    cases hqueue : x.interface.pendingDatagrams ip with
    | none =>
      -- nothing waits, so that no request is out
      have hnoreq : x.interface.pendingArpRequests ip = none := by
        by_contra hsome
        have hwaits := h.request (Option.isSome_iff_ne_none.mpr hsome)
        rw [hqueue] at hwaits
        cases hwaits
      have hnoreq' : (x.interface.tick ms).pendingArpRequests ip = none := by
        have hnot : ¬ x.interface.RequestExpires ms ip := by
          rintro ⟨time, htime, -⟩
          rw [hnoreq] at htime
          cases htime
        rw [hreq' hnot, hnoreq]
        rfl
      have hnone := hgone hexpires
      obtain ⟨l, hl⟩ := h.accounts
      rw [step_tick_of_same (hnone.trans hqueue.symm)]
      exact .of_no_request ⟨l, hl.keep (by rw [hnone, hqueue]) _⟩
        (fun d hd => h.version d (NetworkInterface.waits_tick hd)) hnoreq'
    | some queue =>
      -- the address is not known, or the queue would be stranded
      have hunknown : x.interface.arpTable ip = none := by
        by_contra hsome
        exact hloose ⟨Option.isSome_iff_ne_none.mpr hsome, Option.isSome_of_eq_some hqueue⟩
      have hrequest : x.interface.RequestExpires ms ip := by
        refine hexpires.resolve_left fun ⟨entry, hsome, _⟩ => ?_
        rw [hunknown] at hsome
        cases hsome
      exact inv_tick_of_expires hunknown hrequest h
  · rw [not_or] at hexpires
    exact inv_tick_of_stays hexpires.1 hexpires.2 h

/-- Datagrams of version 4 are sent, and frames that are well formed are received. Nothing is asked
    of the other operations. -/
def Admissible : InterfaceOp → Prop
  | .sendDatagram dgram _ => dgram.header.ver = 4
  | .recvFrame frame => NetworkInterface.WellFormed frame
  | _ => True

/-- **Step.**  An admissible operation that spares the next hop. -/
theorem inv_step {op : InterfaceOp} (hadm : Admissible op) (hspares : Spares ip x op)
    (h : Inv ip x) : Inv ip (step ip x op) := by
  -- what is for another next hop leaves all that concerns this one as it is
  cases op with
  | sendDatagram dgram nextHop =>
    by_cases hhop : nextHop.ipv4Numeric = .ok ip
    · exact inv_sendDatagram hhop hspares hadm h
    · have hother : ¬ nextHop.ipv4Numeric.toOption = some ip := by
        intro hsome
        cases hnum : nextHop.ipv4Numeric with
        | error e =>
          rw [hnum] at hsome
          cases hsome
        | ok ip' =>
          rw [hnum] at hsome hhop
          cases hsome
          exact hhop rfl
      have hstep : step ip x (.sendDatagram dgram nextHop) = { x with
          interface := (x.interface.sendDatagram dgram nextHop).interface } := if_neg hother
      rw [hstep]
      exact h.sameFor (NetworkInterface.sameFor_sendDatagram dgram hhop)
        (NetworkInterface.within_sendDatagram h.version hadm hadm nextHop).waits
  | recvFrame frame =>
    by_cases hfrom : IsFrom ip x.interface frame
    · exact inv_hear hfrom hadm h
    · have hstep : step ip x (.recvFrame frame) = { x with
          interface := (x.interface.recvFrame frame).interface } := if_neg hfrom
      rw [hstep]
      exact h.sameFor (NetworkInterface.sameFor_recvFrame hfrom)
        (NetworkInterface.within_recvFrame h.version frame).waits
  | tick ms => exact inv_tick hspares h
  | popReceived => exact h.sameFor ⟨rfl, rfl, rfl⟩ h.version

/-- **First in, first out.**  The datagrams that were transmitted are some of those submitted, in
    their order; all others are there still, or were removed after 5000 ms of quiet. -/
def Accounted (ip : UInt32) (x : HopRun) : Prop :=
  ∃ sent : List IPv4Datagram, sent.Sublist x.submitted ∧
    List.Forall₂ IPv4Datagram.Carried sent x.frames ∧
    (x.submitted.map IPv4Datagram.copy).Perm (sent.map IPv4Datagram.copy ++
      (x.expired ++ (x.interface.pendingDatagrams ip).getD []))

/-- What the ledger says of the datagrams is what is to be shown of them. -/
theorem Accounts.exists_sent {l : Ledger IPv4Datagram Fate} (hl : Accounts ip x l) :
    Accounted ip x := by
  refine ⟨l.settledAs .transmitted, ?_, hl.transmitted, ?_⟩
  · rw [← hl.submitted]
    exact l.settledAs_sublist .transmitted
  · have hfates : ∀ fate : Fate, fate ≠ .transmitted ↔ fate = .expired := by
      intro fate
      cases fate <;> decide
    rw [← hl.submitted, ← hl.expired, ← hl.waiting, ← List.map_append, ← List.map_append]
    exact (l.items_perm hfates).map IPv4Datagram.copy

/-- **Order is kept** in a run in which datagrams that are stranded are neither overtaken nor
    dropped. -/
theorem accounted (ethernetAddress : EthernetAddress) (ipAddress : Address) (ip : UInt32)
    {ops : List InterfaceOp} (hadm : ∀ op ∈ ops, Admissible op)
    (hspares : Machine.Meets (step ip) (Spares ip) { interface := { ethernetAddress, ipAddress } }
      ops) :
    Accounted ip (of ip ethernetAddress ipAddress ops) := by
  have hinv : Inv ip (of ip ethernetAddress ipAddress ops) := by
    refine (hspares.and (Machine.meets_of_forall hadm)).invariant
      (fun x op h hop => inv_step hop.2 hop.1 h)
      (.of_no_request ⟨{}, rfl, .nil, rfl, rfl⟩ ?_ rfl)
    rintro d ⟨ip', queue, hqueue, -⟩
    cases hqueue
  obtain ⟨l, hl⟩ := hinv.accounts
  exact hl.exists_sent

/-! ### Two runs -/

/-- A message of `10.0.1.2` to the interface of `10.0.1.1`. -/
def message (opcode : UInt8) : EthernetFrame where
  header := { dst := ⟨2, 0, 0, 0, 0, 2⟩, type := EthernetHeader.TYPE_ARP }
  payload := [{ get := [0, 1, 8, 0, 6, 4, 0, opcode, 2, 0, 0, 0, 0, 3, 10, 0, 1, 2,
    2, 0, 0, 0, 0, 2, 10, 0, 1, 1] }]

/-- A datagram for `10.0.1.2`. -/
def sentDatagram (id : UInt16) : IPv4Datagram := { header := { len := 20, id, dst := 0x0a000102 } }

/-- The datagram is sent to the next hop. -/
def sending (id : UInt16) : InterfaceOp := .sendDatagram (sentDatagram id) { addr := 0x0a000102 }

/-- The frame with that datagram. -/
def sentFrame (id : UInt16) : EthernetFrame where
  header :=
    { dst := ⟨2, 0, 0, 0, 0, 3⟩, src := ⟨2, 0, 0, 0, 0, 2⟩, type := EthernetHeader.TYPE_IPv4 }
  payload := [{ get := (sentDatagram id).header.bytes }]

/-- A request or a reply is well formed. -/
theorem wellFormed_message {opcode : UInt8} (h : opcode = 1 ∨ opcode = 2) :
    NetworkInterface.WellFormed (message opcode) where
  arp _ := by
    refine ⟨(message opcode).arpMessage, ?_⟩
    rcases h with rfl | rfl <;> decide +kernel
  ipv4 htype := absurd htype (by decide : EthernetHeader.TYPE_ARP ≠ EthernetHeader.TYPE_IPv4)

/-- Two datagrams wait for the reply, and a third is sent after it. -/
theorem accounted_reply :
    Accounted 0x0a000102 (of 0x0a000102 ⟨2, 0, 0, 0, 0, 2⟩ { addr := 0x0a000101 }
      [sending 1, sending 2, .recvFrame (message 2), sending 3]) := by
  refine accounted _ _ _ ?_ ⟨?_, ?_, ?_, ?_, trivial⟩
  · intro op hop
    fin_cases hop
    · exact rfl
    · exact rfl
    · exact wellFormed_message (.inr rfl)
    · exact rfl
  · exact fun h => absurd h.1 (by decide +kernel)
  · exact fun h => absurd h.1 (by decide +kernel)
  · exact fun _ => trivial
  · exact fun h => absurd h.2 (by decide +kernel)

/-- **A datagram overtakes another**: the address is learned from a request, so that the second
    datagram is transmitted at once, and the first only after the reply. -/
theorem not_accounted :
    ¬ ∀ (ethernetAddress : EthernetAddress) (ipAddress : Address) (ip : UInt32)
      (ops : List InterfaceOp), (∀ op ∈ ops, Admissible op) →
      Accounted ip (of ip ethernetAddress ipAddress ops) := by
  intro hall
  have hadm : ∀ op ∈ [sending 1, .recvFrame (message 1), sending 2, .recvFrame (message 2)],
      Admissible op := by
    intro op hop
    fin_cases hop
    · exact rfl
    · exact wellFormed_message (.inl rfl)
    · exact rfl
    · exact wellFormed_message (.inr rfl)
  have haccounted := hall ⟨2, 0, 0, 0, 0, 2⟩ { addr := 0x0a000101 } 0x0a000102 _ hadm
  have hframes : (of 0x0a000102 ⟨2, 0, 0, 0, 0, 2⟩ { addr := 0x0a000101 }
      [sending 1, .recvFrame (message 1), sending 2, .recvFrame (message 2)]).frames
        = [sentFrame 2, sentFrame 1] := by
    decide +kernel
  have hsubmitted : (of 0x0a000102 ⟨2, 0, 0, 0, 0, 2⟩ { addr := 0x0a000101 }
      [sending 1, .recvFrame (message 1), sending 2, .recvFrame (message 2)]).submitted
        = [sentDatagram 1, sentDatagram 2] := by
    decide +kernel
  obtain ⟨sent, hsub, hcarried, -⟩ := haccounted
  rw [hsubmitted] at hsub
  rw [hframes] at hcarried
  -- both were transmitted, so that the first frame has the first datagram in it
  have hboth : sent = [sentDatagram 1, sentDatagram 2] := hsub.eq_of_length hcarried.length_eq
  rw [hboth] at hcarried
  cases hcarried with
  | cons hfirst _ =>
    have hpayload := hfirst.payload_eq
    revert hpayload
    decide +kernel

/-- Stranded, a datagram is dropped when a message came a millisecond ago. -/
example : ¬ Accounted 0x0a000102 (of 0x0a000102 ⟨2, 0, 0, 0, 0, 2⟩ { addr := 0x0a000101 }
    [sending 1, .tick 4999, .recvFrame (message 1), .tick 1]) := by
  rintro ⟨sent, -, hcarried, hperm⟩
  have hframes : (of 0x0a000102 ⟨2, 0, 0, 0, 0, 2⟩ { addr := 0x0a000101 }
      [sending 1, .tick 4999, .recvFrame (message 1), .tick 1]).frames.length = 0 := by
    decide +kernel
  have hrest : (of 0x0a000102 ⟨2, 0, 0, 0, 0, 2⟩ { addr := 0x0a000101 }
      [sending 1, .tick 4999, .recvFrame (message 1), .tick 1]).submitted.length = 1 ∧
      (of 0x0a000102 ⟨2, 0, 0, 0, 0, 2⟩ { addr := 0x0a000101 }
        [sending 1, .tick 4999, .recvFrame (message 1), .tick 1]).expired.length = 0 ∧
      (((of 0x0a000102 ⟨2, 0, 0, 0, 0, 2⟩ { addr := 0x0a000101 }
        [sending 1, .tick 4999, .recvFrame (message 1), .tick 1]).interface.pendingDatagrams
          0x0a000102).getD []).length = 0 := by
    decide +kernel
  have hlength := hperm.length_eq
  simp only [List.length_map, List.length_append, hcarried.length_eq, hframes, hrest] at hlength
  cases hlength

end HopRun

end Minnow
