import Minnow.RouterRun

namespace Minnow

/-!
# What makes a router throw

`route` and `tick` do not throw, so that only frames are left.

* `NetworkInterface.Tolerates` — a frame does no harm to an interface;
  `NetworkInterface.recvFrame_thrown` shows that the others throw;
* `NetworkInterface.recvFrame_flushes` — a reply that does no harm lets go of all that waits for it;
* `RouterRun.robust_iff` — nothing goes wrong in a run if and only if all of its frames are such.
-/

namespace NetworkInterface

variable {n : NetworkInterface} {frame : EthernetFrame}

/-- A frame that is for an interface does no harm: a datagram has no bytes behind it, or its payload
    is empty, or not shorter than the buffer in which its header ends; a request finds an address of
    version 4 at the interface, and a reply nothing but datagrams of version 4 that wait for its
    sender. -/
structure Tolerates (n : NetworkInterface) (frame : EthernetFrame) : Prop where
  datagram : frame.header.type = EthernetHeader.TYPE_IPv4 →
    ¬ IPv4Datagram.KeepsNone frame.payload
  request : frame.header.type = EthernetHeader.TYPE_ARP →
    frame.arpMessage.opcode = ARPMessage.OPCODE_REQUEST → ∃ ip, n.ipAddress.ipv4Numeric = .ok ip
  reply : frame.header.type = EthernetHeader.TYPE_ARP →
    frame.arpMessage.opcode = ARPMessage.OPCODE_REPLY →
    ∀ d ∈ (n.pendingDatagrams frame.arpMessage.senderIpAddress).getD [], d.header.ver = 4

/-- A message is heard without an exception if its answer, or what it lets go of, throws none. -/
theorem hear_thrown (n : NetworkInterface) (m : ARPMessage) :
    (n.hear m).thrown = none ↔
      (m.opcode = ARPMessage.OPCODE_REQUEST → ∃ ip, n.ipAddress.ipv4Numeric = .ok ip) ∧
      (m.opcode = ARPMessage.OPCODE_REPLY →
        ∀ d ∈ (n.pendingDatagrams m.senderIpAddress).getD [], d.header.ver = 4) := by
  obtain ⟨hinterface, -, -, hthrown⟩ := (n.learn m).answer_spec m
  have hnumeric : (∃ ip, n.ipAddress.ipv4Numeric = .ok ip) ↔
      ¬ ∃ e, n.ipAddress.ipv4Numeric = .error e := by
    cases n.ipAddress.ipv4Numeric <;> simp
  rw [hnumeric, ← not_and]
  -- an answer that throws leaves nothing to be released
  by_cases hanswer : ((n.learn m).answer m).thrown = none
  · have hquiet : ¬ (m.opcode = ARPMessage.OPCODE_REQUEST ∧
        ∃ e, n.ipAddress.ipv4Numeric = .error e) := fun h => hthrown.mpr h hanswer
    rw [hear, andThen_of_quiet hanswer, hinterface, and_iff_right hquiet]
    show ((n.learn m).release m).thrown = none ↔ _
    by_cases hreply : m.opcode = ARPMessage.OPCODE_REPLY
    · by_cases hall : ∀ d ∈ (n.pendingDatagrams m.senderIpAddress).getD [], d.header.ver = 4
      · obtain ⟨frames, -, hrelease⟩ := (n.learn m).release_version4 m hreply hall
        rw [hrelease]
        exact iff_of_true rfl fun _ => hall
      · refine iff_of_false ?_ fun h => hall (h hreply)
        push Not at hall
        obtain ⟨queue, hqueue⟩ : ∃ queue, n.pendingDatagrams m.senderIpAddress = some queue := by
          refine Option.ne_none_iff_exists'.mp fun hnone => ?_
          simp [hnone] at hall
        rw [hqueue, Option.getD_some] at hall
        exact ((n.learn m).release_throws m hreply hqueue hall).1
    · unfold release
      rw [if_neg hreply]
      exact iff_of_true rfl fun h => absurd h hreply
  · rw [hear, andThen_thrown hanswer]
    exact iff_of_false hanswer fun h => h.1 (hthrown.mp hanswer)

/-- **The frames that make an interface throw**, or do what is undefined. -/
theorem recvFrame_thrown (hbuf : Buffered frame) :
    (n.recvFrame frame).thrown = none ↔ (n.IsFor frame → n.Tolerates frame) := by
  have hne : EthernetHeader.TYPE_IPv4 ≠ EthernetHeader.TYPE_ARP := by decide
  by_cases hmine : n.IsFor frame
  · rw [forall_prop_of_true hmine]
    -- each type of frame has harm of its own to do
    by_cases harp : frame.header.type = EthernetHeader.TYPE_ARP
    · rw [recvFrame_arp hmine harp hbuf, hear_thrown]
      constructor
      · rintro ⟨hrequest, hreply⟩
        exact ⟨fun hipv4 => absurd (hipv4.symm.trans harp) hne, fun _ => hrequest, fun _ => hreply⟩
      · intro h
        exact ⟨h.request harp, h.reply harp⟩
    · by_cases hipv4 : frame.header.type = EthernetHeader.TYPE_IPv4
      · have hrecv := recvFrame_ipv4 hmine hipv4 hbuf
        split at hrecv
        · rename_i hnone
          rw [hrecv]
          exact iff_of_false (Option.some_ne_none _) fun h => h.datagram hipv4 hnone
        · rename_i hsome
          obtain ⟨d, hd⟩ := hrecv
          rw [hd]
          exact iff_of_true rfl ⟨fun _ => hsome, fun h => absurd h harp, fun h => absurd h harp⟩
      · rw [recvFrame_other fun _ => ⟨harp, hipv4⟩]
        exact iff_of_true rfl
          ⟨fun h => absurd h hipv4, fun h => absurd h harp, fun h => absurd h harp⟩
  · rw [recvFrame_other fun h => absurd h hmine]
    exact iff_of_true rfl fun h => absurd h hmine

/-- **A reply** that does no harm lets go of all that waits for its sender. -/
theorem recvFrame_flushes (hbuf : Buffered frame) (hmine : n.IsFor frame)
    (h : n.Tolerates frame) (htype : frame.header.type = EthernetHeader.TYPE_ARP)
    (hreply : frame.arpMessage.opcode = ARPMessage.OPCODE_REPLY) {d : IPv4Datagram}
    (hd : d ∈ (n.pendingDatagrams frame.arpMessage.senderIpAddress).getD []) :
    ∃ out ∈ (n.recvFrame frame).transmitted, d.Carried out := by
  have hrecv := recvFrame_arp hmine htype hbuf
  generalize hm : frame.arpMessage = m at hreply hd hrecv
  have hall := h.reply htype (by rw [hm, hreply])
  rw [hm] at hall
  obtain ⟨frames, hframes, hhear⟩ := n.hear_reply m hreply hall
  rw [hrecv, hhear]
  exact exists_of_forall₂ (hframes.imp fun _ _ h => h.toCarried) hd

end NetworkInterface

/-! ### The router -/

namespace Router

/-- Nothing goes wrong in an operation: no exception escapes and nothing undefined happens, and a
    reply lets go of every datagram of version 4 that waits for its sender, whatever waits beside
    it. -/
structure Robust (r : Router) (op : RouterOp) : Prop where
  thrown : (op.act r).thrown = none
  flushed : ∀ i frame interface, op = .recvFrame i frame → r.interfaces[i]? = some interface →
    interface.IsFor frame → frame.header.type = EthernetHeader.TYPE_ARP →
    frame.arpMessage.opcode = ARPMessage.OPCODE_REPLY →
    ∀ d ∈ (interface.pendingDatagrams frame.arpMessage.senderIpAddress).getD [],
      d.header.ver = 4 → ∃ out, (i, out) ∈ (op.act r).transmitted ∧ d.Carried out

/-- A frame that is received does no harm to the interface that it is for. -/
def Safe (r : Router) (op : RouterOp) : Prop :=
  ∀ i frame interface, op = .recvFrame i frame → r.interfaces[i]? = some interface →
    interface.IsFor frame → interface.Tolerates frame

theorem safe_recvFrame_iff {r : Router} {i : ℕ} {interface : NetworkInterface}
    (hi : r.interfaces[i]? = some interface) (frame : EthernetFrame) :
    r.Safe (.recvFrame i frame) ↔ (interface.IsFor frame → interface.Tolerates frame) := by
  constructor
  · intro hsafe
    exact hsafe i frame interface rfl hi
  · rintro htolerates _ _ interface' ⟨rfl, rfl⟩ hsome
    rw [hi] at hsome
    cases hsome
    exact htolerates

/-- Nothing goes wrong where no frame is received by any interface. -/
theorem robust_and_safe {r : Router} {op : RouterOp} (hthrown : (op.act r).thrown = none)
    (hnone : ∀ i frame, op = .recvFrame i frame → r.interfaces[i]? = none) :
    r.Robust op ∧ r.Safe op := by
  have hnot : ∀ i frame interface, op = .recvFrame i frame → r.interfaces[i]? ≠ some interface := by
    intro i frame interface hop hi
    rw [hnone i frame hop] at hi
    cases hi
  refine ⟨⟨hthrown, ?_⟩, ?_⟩
  · intro i frame interface hop hi
    exact absurd hi (hnot i frame interface hop)
  · intro i frame interface hop hi
    exact absurd hi (hnot i frame interface hop)

/-- **One operation.** -/
theorem robust_iff_safe (r : Router) {op : RouterOp}
    (hbuf : ∀ i frame, op = .recvFrame i frame → NetworkInterface.Buffered frame) :
    r.Robust op ↔ r.Safe op := by
  cases op with
  | recvFrame i frame =>
    have hbuf := hbuf i frame rfl
    cases hi : r.interfaces[i]? with
    | none =>
      have hthrown : (RouterOp.act r (.recvFrame i frame)).thrown = none := by
        rw [RouterOp.act_recvFrame_none hi]
      have hboth := robust_and_safe hthrown (by rintro _ _ ⟨rfl, rfl⟩; exact hi)
      exact iff_of_true hboth.1 hboth.2
    | some interface =>
      have hact := RouterOp.act_recvFrame_some hi frame
      rw [safe_recvFrame_iff hi]
      constructor
      · rintro ⟨hthrown, -⟩
        rw [hact] at hthrown
        exact (NetworkInterface.recvFrame_thrown hbuf).mp hthrown
      · intro htolerates
        refine ⟨?_, ?_⟩
        · rw [hact]
          exact (NetworkInterface.recvFrame_thrown hbuf).mpr htolerates
        · -- the version does not matter, as all that waits is of version 4
          rintro _ _ interface' ⟨rfl, rfl⟩ hsome hmine htype hreply d hd -
          rw [hi] at hsome
          cases hsome
          obtain ⟨out, hout, hcarried⟩ := NetworkInterface.recvFrame_flushes hbuf hmine
            (htolerates hmine) htype hreply hd
          rw [hact]
          exact ⟨out, List.mem_map_of_mem hout, hcarried⟩
  | route =>
    have hthrown : (RouterOp.act r .route).thrown = none := rfl
    have hboth := robust_and_safe hthrown (by simp)
    exact iff_of_true hboth.1 hboth.2
  | tick i ms =>
    have hthrown : (RouterOp.act r (.tick i ms)).thrown = none := by
      cases hi : r.interfaces[i]? with
      | none => rw [RouterOp.act_tick_none hi]
      | some interface => rw [RouterOp.act_tick_some hi]
    have hboth := robust_and_safe hthrown (by simp)
    exact iff_of_true hboth.1 hboth.2

end Router

namespace RouterRun

/-- **Nothing goes wrong in a run** if and only if no frame of it harms the interface that it is
    for, in the state in which it finds it. -/
theorem robust_iff (r : Router) {ops : List RouterOp}
    (hbuf : ∀ i frame, .recvFrame i frame ∈ ops → NetworkInterface.Buffered frame) :
    Machine.Meets step (fun x op => x.router.Robust op) { router := r } ops ↔
      Machine.Meets step (fun x op => x.router.Safe op) { router := r } ops := by
  refine Machine.meets_congr fun x op hop => x.router.robust_iff_safe ?_
  rintro i frame rfl
  exact hbuf i frame hop

theorem buffered_relaying (headers : List IPv4Header) (i : ℕ) (frame : EthernetFrame)
    (h : .recvFrame i frame ∈ relaying headers) : NetworkInterface.Buffered frame := by
  have hone : ∀ (header : EthernetHeader) (bytes : Bytes), bytes ≠ [] →
      NetworkInterface.Buffered { header, payload := [{ get := bytes }] } := by
    intro header bytes hne r hr
    rw [List.mem_singleton.mp hr]
    exact ⟨rfl, hne⟩
  rcases List.mem_append.mp h with hdatagram | hrest
  · obtain ⟨header, -, heq⟩ := List.mem_map.mp hdatagram
    cases heq
    refine hone _ _ fun hnil => ?_
    have hlength := header.length_bytes
    rw [hnil] at hlength
    cases hlength
  · rcases List.mem_cons.mp hrest with hroute | hreply
    · cases hroute
    · cases List.mem_singleton.mp hreply
      exact hone _ _ (by decide)

/-- Nothing goes wrong when a datagram of version 4 waits for the reply. -/
theorem robust_relaying :
    Machine.Meets step (fun x op => x.router.Robust op) { router := .twoNetworks }
      (relaying [relayedHeader]) := by
  refine (robust_iff .twoNetworks (buffered_relaying _)).mpr ⟨?_, ?_, ?_, trivial⟩
  · rintro _ _ interface ⟨rfl, rfl⟩ - -
    exact ⟨fun _ => by decide +kernel, fun h => absurd h (by decide), fun h => absurd h (by decide)⟩
  · rintro _ _ _ ⟨⟩
  · rintro _ _ interface ⟨rfl, rfl⟩ hi -
    refine ⟨fun h => absurd h (by decide), fun _ h => absurd h (by decide +kernel), fun _ _ => ?_⟩
    -- the one that waits
    have hvers : (of .twoNetworks ((relaying [relayedHeader]).take 2)).router.interfaces[1]?.map
        (fun n => ((n.pendingDatagrams 0x0a000102).getD []).map (·.header.ver)) = some [4] := by
      decide +kernel
    have hsender : relayReply.arpMessage.senderIpAddress = 0x0a000102 := by decide +kernel
    intro d hd
    rw [hsender] at hd
    have hver : d.header.ver ∈ [4] := by
      rw [← Option.some.inj ((congrArg (Option.map _) hi).symm.trans hvers)]
      exact List.mem_map_of_mem hd
    exact List.mem_singleton.mp hver

/-- **A datagram that is not of version 4** comes in, waits, and makes the reply throw. -/
theorem not_robust : ¬ ∀ (r : Router) (ops : List RouterOp), r.IsNew →
    (∀ route ∈ r.routingTable, route.prefixLength.toNat ≤ 32) →
    (∀ route ∈ r.routingTable, ∀ nextHop ∈ route.nextHop, ∃ ip, nextHop.ipv4Numeric = .ok ip) →
    (∀ i frame, .recvFrame i frame ∈ ops → NetworkInterface.Buffered frame) →
    Machine.Meets step (fun x op => x.router.Robust op) { router := r } ops := by
  intro hrobust
  obtain ⟨-, -, -, hreply, -⟩ := hrobust .twoNetworks
    (relaying [{ relayedHeader with ver := 6 }, relayedHeader]) Router.isNew_twoNetworks
    (by decide) (by decide) (buffered_relaying _)
  have hthrown := hreply.thrown
  revert hthrown
  decide +kernel

end RouterRun

end Minnow
