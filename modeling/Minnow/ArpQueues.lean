import Minnow.ArpFresh
import Minnow.FrameDrop

namespace Minnow

/-!
# Datagrams that wait

While datagrams wait for a next hop, a request for it is out, and it is less than 5000 ms old.

* `ArpRun.Outstanding` — what is kept, for an interface that has an address to send requests from;
* `ArpRun.emptied_by` — a queue is gone by the time its request is 5000 ms old;
* `ArpRun.none_stranded` — hence every datagram is transmitted or discarded by then.

An interface without such an address throws when the datagram is in the queue already, and no
request will take it out again: `ArpRun.stranded_without_address`.
-/

namespace ArpRun

variable {ip : UInt32} {x : ArpRun} {op : InterfaceOp}

/-- While a request is out no other one is sent. -/
theorem requests_of_out (h : (x.interface.pendingArpRequests ip).isSome) (op : InterfaceOp) :
    (step x op).requests ip = x.requests ip := by
  cases x.interface.hopCase ip op with
  | other _ _ _ hnone => exact requests_of_none hnone
  | queued _ _ _ _ _ _ hnone _ => exact requests_of_quiet hnone
  | requested _ _ _ _ _ hquiet _ _ =>
    rw [hquiet] at h
    cases h
  | heard m hheard _ => exact requests_of_heard hheard
  | tick ms hop => exact requests_of_quiet (by rw [hop]; rfl)

/-- A queue that a datagram was put into is not empty. -/
theorem ne_nil_of_queued {n : NetworkInterface} {dgram : IPv4Datagram} {queue : List IPv4Datagram}
    (h : (n.queued ip dgram).pendingDatagrams ip = some queue) : queue ≠ [] := by
  rw [NetworkInterface.queued_pendingDatagrams] at h
  cases h
  simp

/-- What is kept of the queue and the request for a next hop. -/
structure Outstanding (ip : UInt32) (x : ArpRun) : Prop where
  own : ∃ own, x.interface.ipAddress.ipv4Numeric = .ok own
  waits : ∀ queue, x.interface.pendingDatagrams ip = some queue →
    queue ≠ [] ∧ (x.interface.pendingArpRequests ip).isSome
  age : ∀ age, x.interface.pendingArpRequests ip = some age → age.toNat < 5000 ∧
    ∃ sent, (x.requests ip).getLast? = some sent ∧ x.time = sent + age.toNat

/-- Nothing happens that concerns the request for a next hop. -/
theorem Outstanding.same (h : Outstanding ip x) {x' : ArpRun}
    (hown : x'.interface.ipAddress = x.interface.ipAddress)
    (hrequests : x'.requests ip = x.requests ip) (htime : x'.time = x.time)
    (hout : x'.interface.pendingArpRequests ip = x.interface.pendingArpRequests ip)
    (hwaits : ∀ queue, x'.interface.pendingDatagrams ip = some queue →
      queue ≠ [] ∧ (x.interface.pendingArpRequests ip).isSome) : Outstanding ip x' where
  own := by
    rw [hown]
    exact h.own
  waits := by
    rw [hout]
    exact hwaits
  age := by
    rw [hout, hrequests, htime]
    exact h.age

/-- **Time** removes a request that is 5000 ms old, and the queue with it. -/
theorem outstanding_tick {ms : UInt64} (h : Outstanding ip x)
    (hbound : (step x (.tick ms)).time < 2 ^ 64) : Outstanding ip (step x (.tick ms)) := by
  have hrequests : (step x (.tick ms)).requests ip = x.requests ip := requests_of_none rfl
  have htick : (step x (.tick ms)).interface = x.interface.tick ms := rfl
  have htime : (step x (.tick ms)).time = x.time + ms.toNat := rfl
  obtain ⟨-, -, -, hreq, hgone, hstays⟩ := x.interface.tick_spec ms ip
  refine ⟨h.own, fun queue hqueue => ?_, fun age hsome => ?_⟩
  · rw [htick] at hqueue ⊢
    by_cases hexpires : x.interface.EntryExpires ms ip ∨ x.interface.RequestExpires ms ip
    · rw [hgone hexpires] at hqueue
      cases hqueue
    · rw [not_or] at hexpires
      rw [hstays hexpires.1 hexpires.2] at hqueue
      obtain ⟨hne, hout⟩ := h.waits queue hqueue
      rw [hreq hexpires.2, Option.isSome_map]
      exact ⟨hne, hout⟩
  · rw [htick, NetworkInterface.tick_pendingArpRequests_eq_some] at hsome
    obtain ⟨age₀, hsome₀, hlimit, rfl⟩ := hsome
    obtain ⟨hlt, sent, hlast, hage⟩ := h.age age₀ hsome₀
    have hsum : (age₀ + ms).toNat = age₀.toNat + ms.toNat := toNat_add_of_lt (by omega)
    refine ⟨?_, sent, ?_, ?_⟩
    · exact UInt64.lt_iff_toNat_lt.mp (UInt64.not_le.mp hlimit)
    · rw [hrequests, hlast]
    · rw [htime, hsum]
      omega

/-- **Step.**  What waits goes on waiting for a request as old as is noted. -/
theorem outstanding_step (h : Outstanding ip x) (hbound : (step x op).time < 2 ^ 64) :
    Outstanding ip (step x op) := by
  have hinterface : (step x op).interface = (op.act x.interface).interface := rfl
  have hown : (step x op).interface.ipAddress = x.interface.ipAddress :=
    (NetworkInterface.sameAddresses_act op).2
  cases x.interface.hopCase ip op with
  | other hduration _ hsame hnone =>
    apply h.same hown (requests_of_none hnone) (time_step_of hduration) hsame.pendingArpRequests
    rw [hinterface, hsame.pendingDatagrams]
    exact h.waits
  | queued dgram nextHop hop _ _ hqueued hnone hout =>
    have hsome : (x.interface.pendingArpRequests ip).isSome := by
      rw [Option.isSome_iff_ne_none]
      intro hnone
      obtain ⟨e, herror⟩ := hout hnone
      obtain ⟨own, hown⟩ := h.own
      rw [herror] at hown
      cases hown
    apply h.same hown (requests_of_quiet hnone) (time_step_of (by rw [hop]; rfl))
    · rw [hinterface, hqueued]
      rfl
    · intro queue hqueue
      rw [hinterface, hqueued] at hqueue
      exact ⟨ne_nil_of_queued hqueue, hsome⟩
  | requested dgram nextHop hop _ _ _ hqueued hrequest =>
    have htime : (step x op).time = x.time := time_step_of (by rw [hop]; rfl)
    have hzero : (step x op).interface.pendingArpRequests ip = some 0 := by
      rw [hinterface, hqueued]
      exact Function.update_self _ _ _
    refine ⟨by rw [hown]; exact h.own, fun queue hqueue => ?_, fun age hage => ?_⟩
    · rw [hinterface, hqueued] at hqueue
      rw [hzero]
      exact ⟨ne_nil_of_queued hqueue, rfl⟩
    · rw [hzero] at hage
      cases hage
      refine ⟨by decide, x.time, ?_, htime⟩
      rw [requests_of_request hrequest, List.getLast?_concat]
  | heard m hheard hsender =>
    obtain ⟨hact, frame, hop, -⟩ := NetworkInterface.heard_eq_some hheard
    have hrest := (x.interface.hear_sender m).2
    rw [hact] at hinterface
    rw [hsender, ← hinterface] at hrest
    rcases hrest with ⟨hnone, hout⟩ | ⟨hout, hqueue⟩
    · refine ⟨by rw [hown]; exact h.own, fun queue hsome => ?_, fun age hsome => ?_⟩
      · rw [hnone] at hsome
        cases hsome
      · rw [hout] at hsome
        cases hsome
    · apply h.same hown (requests_of_heard hheard) (time_step_of (by rw [hop]; rfl)) hout
      intro queue hsome
      rcases hqueue with hsame | ⟨hwaits, left, hne, hleft⟩
      · rw [hsame] at hsome
        exact h.waits queue hsome
      · -- the datagram that threw is still there
        rw [hleft] at hsome
        cases hsome
        obtain ⟨queue, hqueue⟩ := Option.isSome_iff_exists.mp hwaits
        exact ⟨hne, (h.waits queue hqueue).2⟩
  | tick ms hop =>
    rw [hop] at hbound ⊢
    exact outstanding_tick h hbound

/-! ### Runs -/

/-- What leaves a queue is transmitted or discarded, and nothing is put before the rest. -/
def LosesNothing (ip : UInt32) (x : ArpRun) (op : InterfaceOp) : Prop :=
  ∃ gone left more, (x.interface.pendingDatagrams ip).getD [] = gone ++ left ∧
    ((step x op).interface.pendingDatagrams ip).getD [] = left ++ more ∧
    NetworkInterface.Settles ip x.interface op gone

/-- **Step.**  No operation loses what waits. -/
theorem losesNothing (ip : UInt32) (x : ArpRun) (op : InterfaceOp) : LosesNothing ip x op := by
  obtain ⟨gone, left, more, hbefore, hafter, hsettles, -⟩ := x.interface.queue_act ip op
  exact ⟨gone, left, more, hbefore, hafter, hsettles⟩

section

variable (ethernetAddress : EthernetAddress) {ipAddress : Address} {ops : List InterfaceOp}

/-- **Run.**  It holds of any operations, while the time stays within 64 bits. -/
theorem outstanding_of (hown : ∃ own, ipAddress.ipv4Numeric = .ok own) (ip : UInt32)
    (htime : (ops.map InterfaceOp.duration).sum < 2 ^ 64) :
    Outstanding ip (of ethernetAddress ipAddress ops) := by
  rw [← time_of ethernetAddress ipAddress] at htime
  refine Machine.run_invariant_of_bound (fun x => x.time < 2 ^ 64) ?_
    (fun x op => outstanding_step) ?_ ops htime
  · intro x op h
    exact (Nat.le_add_right x.time op.duration).trans_lt h
  · exact ⟨hown, by simp, by simp⟩

/-- **The deadline.**  By the time a request is 5000 ms old, the queue that it was sent for has been
    empty. -/
theorem emptied_by (hown : ∃ own, ipAddress.ipv4Numeric = .ok own) {sent : ℕ}
    (hsent : ((of ethernetAddress ipAddress ops).requests ip).getLast? = some sent)
    {ops' : List InterfaceOp} (htime : ((ops ++ ops').map InterfaceOp.duration).sum < 2 ^ 64)
    (hlate : sent + 5000 ≤ (of ethernetAddress ipAddress (ops ++ ops')).time) :
    ∃ ops₁, ops₁ <+: ops' ∧
      (of ethernetAddress ipAddress (ops ++ ops₁)).interface.pendingDatagrams ip = none := by
  -- as long as the queue is there, no other request is sent
  have hlast : ∀ ops₂, ((ops ++ ops₂).map InterfaceOp.duration).sum < 2 ^ 64 →
      (∃ ops₁, ops₁ <+: ops₂ ∧
        (of ethernetAddress ipAddress (ops ++ ops₁)).interface.pendingDatagrams ip = none) ∨
      (((of ethernetAddress ipAddress (ops ++ ops₂)).requests ip).getLast? = some sent) := by
    intro ops₂
    induction ops₂ using List.reverseRecOn with
    | nil =>
      intro _
      rw [List.append_nil]
      exact .inr hsent
    | append_singleton ops₂ op ih =>
      intro hbound
      rw [← List.append_assoc, List.map_append, List.sum_append] at hbound
      have hbefore : ((ops ++ ops₂).map InterfaceOp.duration).sum < 2 ^ 64 := by omega
      rcases ih hbefore with ⟨ops₁, hprefix, hnone⟩ | hlast
      · exact .inl ⟨ops₁, hprefix.trans (List.prefix_append _ _), hnone⟩
      · by_cases hqueue :
            (of ethernetAddress ipAddress (ops ++ ops₂)).interface.pendingDatagrams ip = none
        · exact .inl ⟨ops₂, List.prefix_append _ _, hqueue⟩
        · obtain ⟨queue, hsome⟩ := Option.ne_none_iff_exists'.mp hqueue
          have hout := ((outstanding_of ethernetAddress hown ip hbefore).waits queue hsome).2
          rw [← List.append_assoc, of_concat, requests_of_out hout]
          exact .inr hlast
  rcases hlast ops' htime with hemptied | hlast
  · exact hemptied
  · refine ⟨ops', List.prefix_refl _, ?_⟩
    have houtstanding := outstanding_of ethernetAddress hown ip htime
    by_contra hsome
    obtain ⟨queue, hqueue⟩ := Option.ne_none_iff_exists'.mp hsome
    obtain ⟨age, hage⟩ := Option.isSome_iff_exists.mp (houtstanding.waits queue hqueue).2
    obtain ⟨hlt, sent', hlast', htime'⟩ := houtstanding.age age hage
    rw [hlast] at hlast'
    cases hlast'
    omega

/-- **No datagram is stranded** at an interface that has an address to send requests from: while a
    queue is there it is not empty, and its request is out and is less than 5000 ms old; by the time
    that it would be, all that waits has been transmitted or discarded. -/
theorem none_stranded (hown : ∃ own, ipAddress.ipv4Numeric = .ok own)
    (htime : (ops.map InterfaceOp.duration).sum < 2 ^ 64) {queue : List IPv4Datagram}
    (hqueue : (of ethernetAddress ipAddress ops).interface.pendingDatagrams ip = some queue) :
    queue ≠ [] ∧ ∃ age sent,
      (of ethernetAddress ipAddress ops).interface.pendingArpRequests ip = some age ∧
      age.toNat < 5000 ∧
      ((of ethernetAddress ipAddress ops).requests ip).getLast? = some sent ∧
      (of ethernetAddress ipAddress ops).time = sent + age.toNat ∧
      ∀ ops', ((ops ++ ops').map InterfaceOp.duration).sum < 2 ^ 64 →
        sent + 5000 ≤ (of ethernetAddress ipAddress (ops ++ ops')).time →
        Machine.Meets step (LosesNothing ip) (of ethernetAddress ipAddress ops) ops' ∧
          ∃ ops₁, ops₁ <+: ops' ∧
            (of ethernetAddress ipAddress (ops ++ ops₁)).interface.pendingDatagrams ip = none := by
  have houtstanding := outstanding_of ethernetAddress hown ip htime
  obtain ⟨hne, hsome⟩ := houtstanding.waits queue hqueue
  obtain ⟨age, hage⟩ := Option.isSome_iff_exists.mp hsome
  obtain ⟨hlt, sent, hsent, hnow⟩ := houtstanding.age age hage
  refine ⟨hne, age, sent, hage, hlt, hsent, hnow, fun ops' htime' hlate => ⟨?_, ?_⟩⟩
  · exact (Machine.meets_true _ ops').mono fun x op _ => losesNothing ip x op
  · exact emptied_by ethernetAddress hown hsent htime' hlate

end

/-- A datagram waits, and after 5000 ms it does not. -/
theorem none_stranded_expiry :
    ∃ ops₁, ops₁ <+: [.tick 1000, .tick 4000] ∧
      (of ⟨2, 0, 0, 0, 0, 2⟩ { addr := 0x0a000101 }
        ([HopRun.sending 1] ++ ops₁)).interface.pendingDatagrams 0x0a000102 = none := by
  obtain ⟨-, age, sent, -, -, hsent, -, hdeadline⟩ :=
    @none_stranded 0x0a000102 ⟨2, 0, 0, 0, 0, 2⟩ { addr := 0x0a000101 } [HopRun.sending 1]
      ⟨_, rfl⟩ (by decide) [HopRun.sentDatagram 1] (by decide +kernel)
  have hzero : ((of ⟨2, 0, 0, 0, 0, 2⟩ { addr := 0x0a000101 }
      [HopRun.sending 1]).requests 0x0a000102).getLast? = some 0 := by
    decide +kernel
  rw [hzero] at hsent
  cases hsent
  exact (hdeadline _ (by decide) (by decide +kernel)).2

/-- **An interface of IPv6** throws when the datagram is in the queue already. -/
theorem stranded_without_address :
    ¬ ∀ (ethernetAddress : EthernetAddress) (ipAddress : Address) (ops : List InterfaceOp)
      (ip : UInt32) (queue : List IPv4Datagram), (ops.map InterfaceOp.duration).sum < 2 ^ 64 →
      (of ethernetAddress ipAddress ops).interface.pendingDatagrams ip = some queue →
      queue ≠ [] ∧ ∃ age,
        (of ethernetAddress ipAddress ops).interface.pendingArpRequests ip = some age ∧
        age.toNat < 5000 := by
  intro hall
  obtain ⟨-, age, hage, -⟩ := hall ⟨2, 0, 0, 0, 0, 2⟩ { family := Address.AF_INET6, size := 28 }
    [HopRun.sending 1] 0x0a000102 [HopRun.sentDatagram 1] (by decide) (by decide +kernel)
  have hnone : (of ⟨2, 0, 0, 0, 0, 2⟩ { family := Address.AF_INET6, size := 28 }
      [HopRun.sending 1]).interface.pendingArpRequests 0x0a000102 = none := by
    decide +kernel
  rw [hnone] at hage
  cases hage

end ArpRun

end Minnow
