import Minnow.ArpRun

namespace Minnow

/-!
# Addresses that are known

What the table has for a next hop is what was last heard from it, for 30000 ms.

* `ArpRun.mapping` — the entry that the messages of the past come to; `arpTable_of` shows that it is
  the one of the table;
* `NetworkInterface.queue_act` — what becomes of a queue;
* `ArpRun.waits_submitted` — hence what waits for a next hop was submitted for it;
* `ArpRun.sends_fresh` — a datagram is sent to the address that was last heard from its next hop.
-/

namespace NetworkInterface

variable {n : NetworkInterface} {ip : UInt32}

/-- What leaves a queue is discarded by a tick, or transmitted in order, to the sender of a message
    from the next hop. -/
def Settles (ip : UInt32) (n : NetworkInterface) (op : InterfaceOp) (gone : List IPv4Datagram) :
    Prop :=
  gone = [] ∨ (∃ ms, op = .tick ms) ∨
    ∃ m, op.heard n = some m ∧ m.senderIpAddress = ip ∧
      List.Forall₂ (IPv4Datagram.CarriedTo m.senderEthernetAddress) gone (op.act n).transmitted

/-- **What becomes of a queue**: something leaves it in front, and what is put behind the rest was
    submitted for the next hop. -/
theorem queue_act (n : NetworkInterface) (ip : UInt32) (op : InterfaceOp) :
    ∃ gone left more, (n.pendingDatagrams ip).getD [] = gone ++ left ∧
      ((op.act n).interface.pendingDatagrams ip).getD [] = left ++ more ∧ Settles ip n op gone ∧
      ∀ d ∈ more, ∃ dgram nextHop, op = .sendDatagram dgram nextHop ∧
        nextHop.ipv4Numeric = .ok ip ∧ d = dgram.copy := by
  cases n.hopCase ip op with
  | other _ _ hsame _ =>
    refine ⟨[], (n.pendingDatagrams ip).getD [], [], rfl, ?_, .inl rfl, by simp⟩
    rw [hsame.pendingDatagrams, List.append_nil]
  | queued dgram nextHop hop hhop _ hinterface _ _ =>
    refine ⟨[], (n.pendingDatagrams ip).getD [], [dgram.copy], rfl, ?_, .inl rfl, ?_⟩
    · rw [hinterface]
      simp [queued]
    · simpa using ⟨dgram, nextHop, hop, hhop, rfl⟩
  | requested dgram nextHop hop hhop _ _ hinterface _ =>
    refine ⟨[], (n.pendingDatagrams ip).getD [], [dgram.copy], rfl, ?_, .inl rfl, ?_⟩
    · rw [hinterface]
      simp [queued]
    · simpa using ⟨dgram, nextHop, hop, hhop, rfl⟩
  | heard m hheard hsender =>
    have hact := (heard_eq_some hheard).1
    subst hsender
    by_cases hreply : m.opcode = ARPMessage.OPCODE_REPLY
    · obtain ⟨sent, left, hqueue, hframes, hleft⟩ := n.hear_reply_cases m hreply
      have hsettles : Settles m.senderIpAddress n op sent :=
        .inr (.inr ⟨m, hheard, rfl, by rwa [hact]⟩)
      refine ⟨sent, left, [], hqueue, ?_, hsettles, by simp⟩
      rcases hleft with ⟨hnil, hhear⟩ | ⟨-, hhear⟩
      · rw [hact, hhear, hnil]
        simp
      · rw [hact, hhear]
        simp
    · refine ⟨[], (n.pendingDatagrams m.senderIpAddress).getD [], [], rfl, ?_, .inl rfl, by simp⟩
      rw [hact, (n.hear_other m hreply).1, List.append_nil]
      rfl
  | tick ms hop =>
    obtain ⟨-, -, -, -, hgone, hstays⟩ := n.tick_spec ms ip
    have hsettles : ∀ gone, Settles ip n op gone := fun _ => .inr (.inl ⟨ms, hop⟩)
    rw [hop]
    by_cases hexpires : n.EntryExpires ms ip ∨ n.RequestExpires ms ip
    · refine ⟨_, [], [], (List.append_nil _).symm, ?_, hop ▸ hsettles _, by simp⟩
      rw [InterfaceOp.act, hgone hexpires]
      rfl
    · rw [not_or] at hexpires
      refine ⟨[], (n.pendingDatagrams ip).getD [], [], rfl, ?_, .inl rfl, by simp⟩
      rw [InterfaceOp.act, hstays hexpires.1 hexpires.2, List.append_nil]

/-- **The frames with datagrams**: a datagram that `send_datagram` was called with goes to the
    address of the table, and one that waited to the sender of a message from its next hop. -/
theorem act_datagram {op : InterfaceOp} {frame : EthernetFrame}
    (hmem : frame ∈ (op.act n).transmitted)
    (htype : frame.header.type = EthernetHeader.TYPE_IPv4) :
    (∃ dgram nextHop ip entry, op = .sendDatagram dgram nextHop ∧ nextHop.ipv4Numeric = .ok ip ∧
        n.arpTable ip = some entry ∧ dgram.CarriedTo entry.ethernetAddr frame) ∨
      ∃ m, op.heard n = some m ∧ ∃ d ∈ (n.pendingDatagrams m.senderIpAddress).getD [],
        d.CarriedTo m.senderEthernetAddress frame := by
  have harp : ∀ ip : UInt32, ¬ frame.IsRequestFor ip := by
    intro ip hrequest
    have hne := hrequest.type_eq
    rw [htype] at hne
    exact absurd hne (by decide)
  cases op with
  | sendDatagram dgram nextHop =>
    simp only [InterfaceOp.act] at hmem
    cases hhop : nextHop.ipv4Numeric with
    | error e =>
      unfold sendDatagram at hmem
      rw [hhop] at hmem
      cases hmem
    | ok ip =>
      cases hentry : n.arpTable ip with
      | some entry =>
        obtain ⟨-, hcarried⟩ := n.sendDatagram_entry hhop hentry dgram
        exact .inl ⟨dgram, nextHop, ip, entry, rfl, hhop, hentry, hcarried frame hmem⟩
      | none =>
        -- only a request is transmitted
        rcases n.sendDatagram_unknown hhop hentry dgram with
          ⟨-, hnone, -⟩ | ⟨frame', hrequest, -, hsend⟩
        · rw [hnone] at hmem
          cases hmem
        · rw [hsend] at hmem
          rw [List.mem_singleton.mp hmem] at harp
          exact absurd hrequest (harp ip)
  | recvFrame frame' =>
    cases hheard : InterfaceOp.heard n (.recvFrame frame') with
    | none =>
      rw [InterfaceOp.act, (recvFrame_of_not_heard hheard 0).2] at hmem
      cases hmem
    | some m =>
      rw [(heard_eq_some hheard).1] at hmem
      refine .inr ⟨m, rfl, ?_⟩
      by_cases hreply : m.opcode = ARPMessage.OPCODE_REPLY
      · obtain ⟨sent, left, hqueue, hframes, -⟩ := n.hear_reply_cases m hreply
        obtain ⟨d, hd, hcarried⟩ := exists_of_forall₂ hframes.flip hmem
        refine ⟨d, ?_, hcarried⟩
        rw [hqueue]
        exact List.mem_append_left left hd
      · have hother := ((n.hear_other m hreply).2 frame hmem).type_eq
        rw [htype] at hother
        exact absurd hother (by decide)
  | tick | popReceived => cases hmem

end NetworkInterface

namespace ArpRun

variable {ip : UInt32} {x : ArpRun} {op : InterfaceOp}

/-- The last message that was processed from a next hop, with its time. -/
def latest (x : ArpRun) (ip : UInt32) : Option (ℕ × ARPMessage) :=
  (x.heard.filter fun heard => heard.2.senderIpAddress = ip).getLast?

/-- The entry that this message comes to, if less than 30000 ms have passed since. -/
def mapping (x : ArpRun) (ip : UInt32) : Option ARPEntry :=
  match x.latest ip with
  | some (time, m) =>
    if x.time < time + 30000 then
      some { ethernetAddr := m.senderEthernetAddress, timeElapsed := UInt64.ofNat (x.time - time) }
    else none
  | none => none

/-- A message from the address is the latest one. -/
theorem latest_step_of_heard {m : ARPMessage} (h : op.heard x.interface = some m)
    (hsender : m.senderIpAddress = ip) : (step x op).latest ip = some (x.time, m) := by
  simp [latest, step, h, hsender]

/-- Other messages are not. -/
theorem latest_step_of_not (h : ∀ m, op.heard x.interface = some m → m.senderIpAddress ≠ ip) :
    (step x op).latest ip = x.latest ip := by
  have hnone : ((op.heard x.interface).toList.map (x.time, ·)).filter
      (fun heard => heard.2.senderIpAddress = ip) = [] := by
    apply List.filter_eq_nil_iff.mpr
    intro heard hmem
    obtain ⟨m, hm, rfl⟩ := List.mem_map.mp hmem
    simpa using h m (Option.mem_toList.mp hm)
  rw [latest, step, List.filter_append, hnone, List.append_nil, latest]

/-- The table is what the messages of the past come to. -/
structure Learned (ip : UInt32) (x : ArpRun) : Prop where
  arpTable : x.interface.arpTable ip = x.mapping ip
  past : ∀ time m, x.latest ip = some (time, m) → time ≤ x.time

/-- **Time.**  While it stays within 64 bits, an entry is as old as its message. -/
theorem learned_tick {ms : UInt64} (h : Learned ip x) (hbound : (step x (.tick ms)).time < 2 ^ 64) :
    Learned ip (step x (.tick ms)) := by
  have hlatest : (step x (.tick ms)).latest ip = x.latest ip :=
    latest_step_of_not fun _ h => by cases h
  have htick : (step x (.tick ms)).interface = x.interface.tick ms := rfl
  have htime : (step x (.tick ms)).time = x.time + ms.toNat := rfl
  constructor
  · rw [htick, mapping, hlatest, htime]
    cases hlast : x.latest ip with
    | none =>
      have hnone : x.interface.arpTable ip = none := by rw [h.arpTable, mapping, hlast]
      exact NetworkInterface.tick_arpTable_eq_none.mpr (.inl hnone)
    | some last =>
      obtain ⟨time, m⟩ := last
      have hpast := h.past time m hlast
      have hentry := h.arpTable
      rw [mapping, hlast] at hentry
      dsimp only at hentry ⊢
      -- the sum of the code is the time that has passed
      have hage : (UInt64.ofNat (x.time - time) + ms).toNat = x.time + ms.toNat - time := by
        have hold : (UInt64.ofNat (x.time - time)).toNat = x.time - time :=
          toNat_ofNat_of_lt (by omega)
        rw [toNat_add_of_lt (by omega), hold]
        omega
      by_cases hfresh : x.time < time + 30000
      · rw [if_pos hfresh] at hentry
        by_cases hlater : x.time + ms.toNat < time + 30000
        · rw [if_pos hlater]
          refine NetworkInterface.tick_arpTable_eq_some.mpr ⟨_, hentry, ?_, ?_⟩
          · rw [UInt64.lt_iff_toNat_lt, hage]
            show x.time + ms.toNat - time < 30000
            omega
          · congr 1
            apply UInt64.toNat_inj.mp
            rw [hage, toNat_ofNat_of_lt (by omega)]
        · rw [if_neg hlater]
          refine NetworkInterface.tick_arpTable_eq_none.mpr (.inr ⟨_, hentry, ?_⟩)
          rw [ge_iff_le, UInt64.le_iff_toNat_le, hage]
          show 30000 ≤ x.time + ms.toNat - time
          omega
      · rw [if_neg hfresh] at hentry
        rw [if_neg (by omega)]
        exact NetworkInterface.tick_arpTable_eq_none.mpr (.inl hentry)
  · intro time m hsome
    rw [hlatest] at hsome
    have hpast := h.past time m hsome
    omega

/-- **Step.**  The table goes on being what the messages come to. -/
theorem learned_step (h : Learned ip x) (hbound : (step x op).time < 2 ^ 64) :
    Learned ip (step x op) := by
  have hinterface : (step x op).interface = (op.act x.interface).interface := rfl
  -- without a message the entry and its age stay
  have hsame : (∀ m, op.heard x.interface = some m → m.senderIpAddress ≠ ip) →
      op.duration = 0 → (op.act x.interface).interface.arpTable ip = x.interface.arpTable ip →
      Learned ip (step x op) := by
    intro hheard hduration hkept
    have htime : (step x op).time = x.time := time_step_of hduration
    have hlatest : (step x op).latest ip = x.latest ip := latest_step_of_not hheard
    constructor
    · rw [hinterface, hkept, h.arpTable, mapping, mapping, hlatest, htime]
    · rw [hlatest, htime]
      exact h.past
  have hsend : ∀ dgram nextHop, op = .sendDatagram dgram nextHop →
      (op.act x.interface).interface.arpTable ip = x.interface.arpTable ip →
      Learned ip (step x op) := by
    rintro dgram nextHop rfl
    exact hsame (fun _ h => by cases h) rfl
  cases x.interface.hopCase ip op with
  | other hduration hheard hkept _ => exact hsame hheard hduration hkept.arpTable
  | queued dgram nextHop hop _ _ hqueued _ _ =>
    apply hsend dgram nextHop hop
    rw [hqueued]
    rfl
  | requested dgram nextHop hop _ _ _ hqueued _ =>
    apply hsend dgram nextHop hop
    rw [hqueued]
    rfl
  | heard m hheard hsender =>
    obtain ⟨hact, frame, hop, -⟩ := NetworkInterface.heard_eq_some hheard
    have htime : (step x op).time = x.time := time_step_of (by rw [hop]; rfl)
    have hlatest : (step x op).latest ip = some (x.time, m) := latest_step_of_heard hheard hsender
    constructor
    · have hknown := (x.interface.hear_sender m).1
      rw [hsender] at hknown
      rw [hinterface, hact, hknown, mapping, hlatest, htime]
      simp
    · intro time m' hsome
      rw [hlatest] at hsome
      cases hsome
      exact htime.ge
  | tick ms hop =>
    rw [hop] at hbound ⊢
    exact learned_tick h hbound

/-! ### Runs -/

section

variable (ethernetAddress : EthernetAddress) (ipAddress : Address)

/-- A run, and one more operation. -/
theorem of_concat (ops : List InterfaceOp) (op : InterfaceOp) :
    of ethernetAddress ipAddress (ops ++ [op]) = step (of ethernetAddress ipAddress ops) op :=
  Machine.run_concat step _ ops op

/-- The time of a run is the sum of its ticks. -/
theorem time_of (ops : List InterfaceOp) :
    (of ethernetAddress ipAddress ops).time = (ops.map InterfaceOp.duration).sum := by
  induction ops using List.reverseRecOn with
  | nil => rfl
  | append_singleton ops op ih =>
    rw [of_concat, List.map_append, List.sum_append, ← ih]
    simp [step]

/-- **What is known** of each next hop, in every run within 64 bits. -/
theorem learned_of (ip : UInt32) {ops : List InterfaceOp}
    (htime : (ops.map InterfaceOp.duration).sum < 2 ^ 64) :
    Learned ip (of ethernetAddress ipAddress ops) := by
  rw [← time_of ethernetAddress ipAddress] at htime
  refine Machine.run_invariant_of_bound (fun x => x.time < 2 ^ 64) ?_ (fun x op => learned_step) ?_
    ops htime
  · intro x op h
    exact (Nat.le_add_right x.time op.duration).trans_lt h
  · exact ⟨rfl, by simp [latest]⟩

/-- **What waits** for a next hop was submitted for it. -/
theorem waits_submitted (ip : UInt32) (ops : List InterfaceOp) :
    ∀ d ∈ ((of ethernetAddress ipAddress ops).interface.pendingDatagrams ip).getD [],
      ∃ dgram nextHop, .sendDatagram dgram nextHop ∈ ops ∧ nextHop.ipv4Numeric = .ok ip ∧
        d = dgram.copy := by
  induction ops using List.reverseRecOn with
  | nil => simp [of]
  | append_singleton ops op ih =>
    rw [of_concat]
    intro d hd
    obtain ⟨gone, left, more, hbefore, hafter, -, hmore⟩ :=
      (of ethernetAddress ipAddress ops).interface.queue_act ip op
    have hd' : d ∈ left ++ more := hafter ▸ hd
    rcases List.mem_append.mp hd' with hleft | hnew
    · have hold := List.mem_append_right gone hleft
      rw [← hbefore] at hold
      obtain ⟨dgram, nextHop, hmem, hrest⟩ := ih d hold
      exact ⟨dgram, nextHop, List.mem_append_left _ hmem, hrest⟩
    · obtain ⟨dgram, nextHop, rfl, hrest⟩ := hmore d hnew
      exact ⟨dgram, nextHop, by simp, hrest⟩

/-- A frame with a datagram is for a next hop: `send_datagram` is called for it, or was, and now a
    message comes from the next hop. -/
def SentFor (ip : UInt32) (ops : List InterfaceOp) (n : NetworkInterface) (op : InterfaceOp)
    (frame : EthernetFrame) : Prop :=
  ∃ dgram nextHop, nextHop.ipv4Numeric = .ok ip ∧ dgram.Carried frame ∧
    (op = .sendDatagram dgram nextHop ∨
      .sendDatagram dgram nextHop ∈ ops ∧ ∃ m, op.heard n = some m ∧ m.senderIpAddress = ip)

/-- **Datagrams go to addresses that are fresh.**  A frame for a next hop goes to the sender of the
    last message from it, which is less than 30000 ms old; the entry of a next hop is what this
    message comes to, and this is not changed by messages from others. -/
theorem sends_fresh {ops : List InterfaceOp} {op : InterfaceOp}
    (htime : ((ops ++ [op]).map InterfaceOp.duration).sum < 2 ^ 64) :
    let x := of ethernetAddress ipAddress ops
    let x' := of ethernetAddress ipAddress (ops ++ [op])
    (∀ ip, x'.interface.arpTable ip = x'.mapping ip) ∧
      (∀ ip, (∀ m, op.heard x.interface = some m → m.senderIpAddress ≠ ip) →
        x'.latest ip = x.latest ip) ∧
      ∀ frame ∈ (op.act x.interface).transmitted,
        frame.header.type = EthernetHeader.TYPE_IPv4 →
        ∃ ip, SentFor ip ops x.interface op frame ∧
          ∃ time m, x'.latest ip = some (time, m) ∧ x'.time < time + 30000 ∧
            frame.header.dst = m.senderEthernetAddress := by
  intro x x'
  have hx' : x' = step x op := of_concat ethernetAddress ipAddress ops op
  have hbefore : (ops.map InterfaceOp.duration).sum < 2 ^ 64 := by
    rw [List.map_append, List.sum_append] at htime
    omega
  refine ⟨fun ip => (learned_of ethernetAddress ipAddress ip htime).arpTable, fun ip h => ?_,
    fun frame hmem htype => ?_⟩
  · rw [hx']
    exact latest_step_of_not h
  rcases NetworkInterface.act_datagram hmem htype with
    ⟨dgram, nextHop, ip, entry, rfl, hhop, hentry, hcarried⟩ | ⟨m, hheard, d, hd, hcarried⟩
  · -- the entry is that of the last message, and nothing is heard now
    refine ⟨ip, ⟨dgram, nextHop, hhop, hcarried.toCarried, .inl rfl⟩, ?_⟩
    have hlatest : x'.latest ip = x.latest ip := by
      rw [hx']
      exact latest_step_of_not fun _ h => by cases h
    have hmapping : x.mapping ip = some entry :=
      (learned_of ethernetAddress ipAddress ip hbefore).arpTable.symm.trans hentry
    have hnow : x'.time = x.time := by
      rw [hx']
      exact time_step_of rfl
    rw [hlatest, hnow]
    rw [mapping] at hmapping
    split at hmapping
    · rename_i time m hlast
      split at hmapping
      · rename_i hfresh
        cases hmapping
        exact ⟨time, m, hlast, hfresh, hcarried.dst_eq⟩
      · cases hmapping
    · cases hmapping
  · -- the message that is heard is the last one
    obtain ⟨dgram, nextHop, hsubmitted, hhop, rfl⟩ :=
      waits_submitted ethernetAddress ipAddress m.senderIpAddress ops d hd
    refine ⟨m.senderIpAddress, ⟨dgram, nextHop, hhop, ?_, .inr ⟨hsubmitted, m, hheard, rfl⟩⟩,
      x.time, m, ?_, ?_, hcarried.dst_eq⟩
    · exact IPv4Datagram.carried_copy.mp hcarried.toCarried
    · rw [hx']
      exact latest_step_of_heard hheard rfl
    · obtain ⟨-, frame', hop, -⟩ := NetworkInterface.heard_eq_some hheard
      have hnow : x'.time = x.time := by
        rw [hx', time_step_of (by rw [hop]; rfl)]
      omega

end

/-- A datagram that has waited for the reply. -/
theorem sends_fresh_reply :
    let x := of ⟨2, 0, 0, 0, 0, 2⟩ { addr := 0x0a000101 } [HopRun.sending 1, .tick 4999]
    let x' := of ⟨2, 0, 0, 0, 0, 2⟩ { addr := 0x0a000101 }
      [HopRun.sending 1, .tick 4999, .recvFrame (HopRun.message 2)]
    ∃ ip, SentFor ip [HopRun.sending 1, .tick 4999] x.interface (.recvFrame (HopRun.message 2))
        (HopRun.sentFrame 1) ∧
      ∃ time m, x'.latest ip = some (time, m) ∧ x'.time < time + 30000 ∧
        (HopRun.sentFrame 1).header.dst = m.senderEthernetAddress := by
  have hfresh := @sends_fresh ⟨2, 0, 0, 0, 0, 2⟩ { addr := 0x0a000101 }
    [HopRun.sending 1, .tick 4999] (.recvFrame (HopRun.message 2)) (by decide)
  exact hfresh.2.2 (HopRun.sentFrame 1) (by decide +kernel) rfl

end ArpRun

end Minnow
