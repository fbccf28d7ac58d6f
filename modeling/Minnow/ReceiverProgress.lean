import Minnow.EndToEnd

namespace Minnow

/-!
# The receiver goes on

A segment that has arrived takes the receiver beyond what the sender knows to be acknowledged, if
it has not got there before.

* `Following` — what a receiver knows of the last segment: as soon as it has any byte of it, it
  expects the end of the stream, and it closes the stream with the last byte;
* `Direction.advances` — the segment that the last acknowledgment falls in makes the receiver
  acknowledge more.
-/

open TCPSender TCPReceiver SlidingWindow IntervalMap

namespace TCPReceiver

variable {isn : Wrap32} {S : Bytes} {known : Bool} {r : TCPReceiver} {m : TCPSenderMessage} {p : ℕ}

/-- A receiver without ISN does not hear a message without SYN. -/
theorem receive_of_deaf (hset : r.isnSet = false) (hrst : m.RST = false) (hsyn : m.SYN = false) :
    r.receive m = r := by
  simp [receive, hset, hrst, hsyn]

/-- **Hearing a genuine message.**  Its payload is inserted at its place in the stream. -/
theorem receive_extends (h : Assembling isn S known r) (hS : S.length + 2 < 2 ^ 31)
    (hrst : m.RST = false) (hm : Genuine isn S known m p)
    (hset : r.isnSet = true ∨ m.SYN = true) :
    (r.receive m).isnSet = true ∧ ∃ f written,
      f.toNat = (if p = 0 ∧ m.SYN = false then 2 ^ 64 - 1 else p - 1) ∧
        Reassembler.Extends S known r.reassembler f m.payload m.FIN (r.receive m).reassembler
          written := by
  have hstart : ∃ r₀ : TCPReceiver, r₀.isnSet = true ∧ r₀.isn = isn ∧
      r₀.reassembler = r.reassembler ∧ r.receive m = { r₀ with
        reassembler := r₀.reassembler.insert (m.seqno.unwrap r₀.isn r₀.output.bytesPushed - 1
          + (if m.SYN then 1 else 0)) m.payload m.FIN } := by
    by_cases hdeaf : r.isnSet = true
    · exact ⟨r, hdeaf, h.isn_eq hdeaf, rfl, by simp [receive, hrst, hdeaf]⟩
    · -- the message with the SYN carries the ISN
      have hsyn := hset.resolve_left hdeaf
      have hseqno : m.seqno = isn := by rw [hm.seqno_eq, hm.syn hsyn, Wrap32.ofPos_zero]
      exact ⟨{ r with isn := m.seqno, isnSet := true }, rfl, hseqno, rfl,
        by simp [receive, hrst, hdeaf, hsyn]⟩
  obtain ⟨r₀, hset₀, hisn₀, hsame, heq⟩ := hstart
  have hle := h.slices.next_le
  have hpos := hm.pos_le
  have hnext : r₀.output.bytesPushed.toNat = r.reassembler.nextByteIndex.toNat :=
    congrArg (fun x : Reassembler => x.nextByteIndex.toNat) hsame
  have hindex := hm.toNat_streamIndex r₀.output.bytesPushed (by omega) (by omega)
  rw [heq, hisn₀, hsame]
  generalize m.seqno.unwrap isn r₀.output.bytesPushed - 1 + (if m.SYN then 1 else 0) = f
    at hindex ⊢
  have hslice : IsSlice S f.toNat m.payload := by
    rw [hindex]
    split
    · rename_i hempty
      rw [(hm.empty hempty.1 hempty.2).1]
      exact isSlice_nil S _
    · exact hm.slice
  have hlast : m.FIN = true → known = true ∧ f.toNat + m.payload.length = S.length := by
    intro hfin
    rw [hindex, if_neg]
    · exact hm.fin hfin
    · rintro ⟨hzero, hsyn⟩
      rw [(hm.empty hzero hsyn).2] at hfin
      cases hfin
  obtain ⟨written, he⟩ := h.slices.insert (by rw [maxSize]; omega) hslice hlast
  exact ⟨hset₀, f, written, hindex, he⟩

end TCPReceiver

/-! ### The last segment -/

/-- What a receiver has to do with the last acknowledgment, and with the last segment. -/
structure Following (h : SenderRun) (r : TCPReceiver) : Prop where
  deaf : r.isnSet = false → h.acked = 0
  /-- Bytes of the last segment do not come without the end of the stream. -/
  noted : ∀ m ∈ h.sent, m.FIN = true → ∀ i, (payloads h.sent).length ≤ i + m.payload.length →
    i < r.next ∨ i ∈ covers r.reassembler.waiting →
      r.reassembler.lastByte = UInt64.ofNat (payloads h.sent).length - 1
  closed : ∀ m ∈ h.sent, m.FIN = true → m.payload ≠ [] → r.next = (payloads h.sent).length →
    r.output.eof = true

namespace Tiling

variable {accepted : Bytes} {s : TCPSender} {sent l l' : List TCPSenderMessage}
  {m x : TCPSenderMessage}

/-- Only one segment has a FIN. -/
theorem fin_unique (h : Tiling accepted s sent) (hm : m ∈ sent) (hmfin : m.FIN = true)
    (hx : x ∈ sent) (hxfin : x.FIN = true) : m = x := by
  obtain ⟨l, l', hsent⟩ := List.append_of_mem hm
  have hnil := h.fin_last l m l' hsent hmfin
  rw [hsent, hnil] at hx
  rcases List.mem_append.mp hx with hl | hx
  · -- then the other one would be the last
    obtain ⟨k, k', rfl⟩ := List.append_of_mem hl
    rw [List.append_assoc, List.cons_append] at hsent
    have := h.fin_last k x _ hsent hxfin
    simp at this
  · exact (List.mem_singleton.mp hx).symm

/-- The other segments end before the one with the FIN starts. -/
theorem length_before_fin (h : Tiling accepted s sent) (hsent : sent = l ++ m :: l')
    (hmfin : m.FIN = false) (hx : x ∈ sent) (hxfin : x.FIN = true) :
    (payloads l).length + m.payload.length + x.payload.length ≤ (payloads sent).length := by
  have hx' : x ∈ l' := by
    rw [hsent] at hx
    rcases List.mem_append.mp hx with hl | hx
    · obtain ⟨k, k', rfl⟩ := List.append_of_mem hl
      rw [List.append_assoc, List.cons_append] at hsent
      have := h.fin_last k x _ hsent hxfin
      simp at this
    · refine (List.mem_cons.mp hx).resolve_left ?_
      rintro rfl
      rw [hmfin] at hxfin
      cases hxfin
  obtain ⟨k, k', rfl⟩ := List.append_of_mem hx'
  rw [hsent]
  simp only [payloads_append, payloads_cons, List.length_append]
  omega

/-- A segment is genuine at the position where it was sent. -/
theorem genuine_at (h : Tiling accepted s sent) (hS : (payloads sent).length + 2 < 2 ^ 31)
    (hsent : sent = l ++ m :: l') :
    Genuine s.isn (payloads sent) (finIn sent) m (seqnos l) := by
  obtain ⟨p, hm⟩ := h.genuine (hsent ▸ List.mem_append_right l List.mem_cons_self)
  have hle := h.seqnos_le
  have htiles := h.tiles
  rw [hsent, tiles_append, zero_add] at htiles
  have hlen : seqnos l ≤ seqnos sent := by
    rw [hsent, seqnos_append]
    exact Nat.le_add_right _ _
  have hpos := hm.pos_le
  have hmod : p % 2 ^ 32 = seqnos l % 2 ^ 32 := by
    rw [← Wrap32.ofPos_inj (z := s.isn), ← hm.seqno_eq]
    exact htiles.2.1
  have hp : p = seqnos l := by omega
  exact hp ▸ hm

/-- **A segment** is inserted behind the payloads of those sent before. -/
theorem receive_segment (h : Tiling accepted s sent) (hS : (payloads sent).length + 2 < 2 ^ 31)
    (hsent : sent = l ++ m :: l') {r : TCPReceiver}
    (ha : Assembling s.isn (payloads sent) (finIn sent) r)
    (hset : r.isnSet = true ∨ m.SYN = true) :
    (r.receive m).isnSet = true ∧ ∃ f written, f.toNat = (payloads l).length ∧
      Reassembler.Extends (payloads sent) (finIn sent) r.reassembler f m.payload m.FIN
        (r.receive m).reassembler written := by
  have hrst := (h.segment m (hsent ▸ List.mem_append_right l List.mem_cons_self)).2.2
  obtain ⟨hset', f, written, hf, he⟩ := receive_extends ha hS hrst (h.genuine_at hS hsent) hset
  obtain ⟨hlen, hzero⟩ := h.seqnos_before hsent
  refine ⟨hset', f, written, ?_, he⟩
  rw [hf, if_neg, hlen]
  rintro ⟨hnone, hsyn⟩
  rw [(h.syn_iff l m l' hsent).mpr (hzero hnone)] at hsyn
  cases hsyn

end Tiling

namespace Following

variable {isn : Wrap32} {h : SenderRun} {r r' : TCPReceiver}

/-- A receiver that has only changed what does not matter here. -/
theorem of_same (hf : Following h r) (hset : r'.isnSet = r.isnSet) (hnext : r'.next = r.next)
    (hwaiting : r'.reassembler.waiting = r.reassembler.waiting)
    (hlast : r'.reassembler.lastByte = r.reassembler.lastByte)
    (heof : r'.output.eof = r.output.eof) : Following h r' where
  deaf := hset ▸ hf.deaf
  noted := by
    rw [hnext, hwaiting, hlast]
    exact hf.noted
  closed := by
    rw [hnext, heof]
    exact hf.closed

/-- What a message at a place in the stream has to do with the last segment. -/
def Part (h : SenderRun) (f : ℕ) (m : TCPSenderMessage) : Prop :=
  (m ∈ h.sent ∧ m.FIN = true) ∨ m.FIN = false ∧ (m.payload = [] ∨ ∀ x ∈ h.sent, x.FIN = true →
    f + m.payload.length + x.payload.length ≤ (payloads h.sent).length)

/-- **Inserting** what comes from the sender. -/
theorem insert {known : Bool} (hf : Following h r) (ht : Tiling h.accepted h.sender h.sent)
    {f : UInt64} {m : TCPSenderMessage} {written : Bytes} (hpart : Part h f.toNat m)
    (hlast : m.FIN = true → f.toNat + m.payload.length = (payloads h.sent).length)
    (hset : r'.isnSet = true)
    (he : Reassembler.Extends (payloads h.sent) known r.reassembler f m.payload m.FIN
      r'.reassembler written) : Following h r' := by
  have hnext : r'.next = r.next + written.length := he.next_eq
  have hle : r'.next ≤ (payloads h.sent).length := he.slices.next_le
  have hnoted : ∀ x ∈ h.sent, x.FIN = true → ∀ i,
      (payloads h.sent).length ≤ i + x.payload.length →
        i < r'.next ∨ i ∈ covers r'.reassembler.waiting →
          r'.reassembler.lastByte = UInt64.ofNat (payloads h.sent).length - 1 := by
    intro x hx hxfin i hi hhas
    have hlt : i < (payloads h.sent).length := by
      rcases hhas with hlt | ⟨b, hb⟩
      · omega
      · exact (List.getElem?_eq_some_iff.mp (he.slices.held i b hb)).1
    rcases hpart with ⟨hm, hmfin⟩ | ⟨hmfin, hbefore⟩
    · -- the last segment itself
      obtain rfl := ht.fin_unique hm hmfin hx hxfin
      have hne : m.payload ≠ [] := by
        intro hnil
        rw [hnil, List.length_nil] at hi
        omega
      rw [he.lastByte_eq.resolve_right fun hend => hne hend.1, Reassembler.noteLast, hmfin,
        ← hlast hmfin, UInt64.ofNat_add, UInt64.ofNat_toNat]
      rfl
    · -- another one brings nothing of the last
      have hsame : r'.reassembler.lastByte = r.reassembler.lastByte := by
        have hlb := he.lastByte_eq
        rw [hmfin, Reassembler.noteLast] at hlb
        simpa using hlb
      rw [hsame]
      refine hf.noted x hx hxfin i hi ?_
      by_cases hold : i < r.next
      · exact .inl hold
      have hcovers := Set.ext_iff.mp he.covers_eq i
      have hmem : i ∈ covers r'.reassembler.waiting
          ∪ Set.Ico r.next (r.next + written.length) := by
        rcases hhas with hnew | hwaits
        · exact .inr ⟨not_lt.mp hold, hnext ▸ hnew⟩
        · exact .inl hwaits
      refine .inr ((hcovers.mp hmem).resolve_right ?_)
      rintro ⟨⟨hfrom, hin⟩, -⟩
      rcases hbefore with hnil | hbefore
      · rw [hnil, List.length_nil] at hin
        omega
      · have := hbefore x hx hxfin
        omega
  refine ⟨fun hdeaf => ?_, hnoted, fun x hx hxfin hne hfull => ?_⟩
  · rw [hset] at hdeaf
    cases hdeaf
  · by_cases hnil : written = []
    · refine he.eof_iff.mpr (.inl (hf.closed x hx hxfin hne ?_))
      rw [← hfull, hnext, hnil, List.length_nil, add_zero]
    · have hpos := List.length_pos_of_ne_nil hnil
      have hxpos := List.length_pos_of_ne_nil hne
      have hexpects := hnoted x hx hxfin ((payloads h.sent).length - 1) (by omega)
        (.inl (by omega))
      exact he.eof_iff.mpr (.inr (.inr ⟨hnil, hfull, hexpects⟩))

/-- **Sending.**  The receiver has nothing of a segment that is new. -/
theorem push {known : Bool} (hf : Following h r) (ht : Tiling h.accepted h.sender h.sent)
    (ha : Assembling isn (payloads h.sent) known r) : Following (h.step .push) r := by
  set new := h.sender.push.2.filter fun m => ¬ m.RST with hnew
  have hsent : (h.step .push).sent = h.sent ++ new := rfl
  by_cases hfin : h.sender.finSent = true
  · have hsame : (h.step .push).sent = h.sent := by
      rw [hsent, hnew, (ht.push_of_finSent hfin).2, List.append_nil]
    exact ⟨hf.deaf, by rw [hsame]; exact hf.noted, by rw [hsame]; exact hf.closed⟩
  have hle : r.next ≤ (payloads h.sent).length := ha.slices.next_le
  -- the segment with the FIN is among the new ones
  have hlast : ∀ x ∈ (h.step .push).sent, x.FIN = true →
      (payloads h.sent).length + x.payload.length ≤ (payloads (h.step .push).sent).length := by
    intro x hx hxfin
    rw [hsent] at hx ⊢
    have hx' : x ∈ new := by
      refine (List.mem_append.mp hx).resolve_left fun hold => hfin ?_
      exact ht.finSent_iff.mpr ⟨x, hold, hxfin⟩
    obtain ⟨k, k', hk⟩ := List.append_of_mem hx'
    rw [hk]
    simp only [payloads_append, payloads_cons, List.length_append]
    omega
  refine ⟨hf.deaf, fun x hx hxfin i hi hhas => ?_, fun x hx hxfin hne hfull => ?_⟩
  · have hbeyond := hlast x hx hxfin
    rcases hhas with hlt | ⟨b, hb⟩
    · omega
    · have hlt := (List.getElem?_eq_some_iff.mp (ha.slices.held i b hb)).1
      omega
  · have hbeyond := hlast x hx hxfin
    have hpos := List.length_pos_of_ne_nil hne
    omega

/-- A step of the sender that sends no segment. -/
theorem of_sent_eq {h' : SenderRun} (hf : Following h r) (hsent : h'.sent = h.sent)
    (hacked : r.isnSet = false → h'.acked = h.acked) : Following h' r where
  deaf hset := (hacked hset).trans (hf.deaf hset)
  noted := by
    rw [hsent]
    exact hf.noted
  closed := by
    rw [hsent]
    exact hf.closed

/-- **Any operation of the sender.** -/
theorem senderOp {known : Bool} (hf : Following h r) (ht : Tiling h.accepted h.sender h.sent)
    (ha : Assembling isn (payloads h.sent) known r) (op : SenderOp)
    (hmsg : ∀ msg, op = .receive msg → Acknowledges isn r msg) : Following (h.step op) r := by
  cases op with
  | push => exact hf.push ht ha
  | write | close | setError | tick => exact hf.of_sent_eq rfl fun _ => rfl
  | receive msg =>
    refine hf.of_sent_eq rfl fun hdeaf => ?_
    -- a receiver without ISN has acknowledged nothing
    have hnone : msg.ackno = none := by
      cases hack : msg.ackno with
      | none => rfl
      | some w =>
        have hset := (hmsg msg rfl w hack).1
        rw [hdeaf] at hset
        cases hset
    show h.ackedAfter msg = h.acked
    simp [SenderRun.ackedAfter, hnone]

/-- **Receiving** what comes from the sender. -/
theorem receive (hf : Following h r) (ht : Tiling h.accepted h.sender h.sent)
    (ha : Assembling h.sender.isn (payloads h.sent) (finIn h.sent) r)
    (hS : (payloads h.sent).length + 2 < 2 ^ 31) {m : TCPSenderMessage}
    (hmsg : PeerRun.FromSender h m) : Following h (r.receive m) := by
  by_cases hrst : m.RST = true
  · have hsame : r.receive m = r.setOutput r.output.setError := by
      rw [TCPReceiver.receive, if_pos hrst]
    rw [hsame]
    exact hf.of_same rfl rfl rfl rfl rfl
  have hrst' : m.RST = false := by simpa using hrst
  by_cases hset : r.isnSet = true ∨ m.SYN = true
  swap
  · rw [not_or, Bool.not_eq_true, Bool.not_eq_true] at hset
    rw [receive_of_deaf hset.1 hrst' hset.2]
    exact hf
  rcases hmsg with htrue | hm | ⟨k, hk, rfl⟩
  · exact absurd htrue hrst
  · obtain ⟨l, l', hsent⟩ := List.append_of_mem hm
    obtain ⟨hset', f, written, hfl, he⟩ := ht.receive_segment hS hsent ha hset
    refine hf.insert ht ?_ (fun hfin => ?_) hset' he
    · cases hfin : m.FIN with
      | true => exact .inl ⟨hm, hfin⟩
      | false =>
        rw [hfl]
        exact .inr ⟨hfin, .inr fun x hx hxfin => ht.length_before_fin hsent hfin hx hxfin⟩
    · rw [hfl, hsent, ht.fin_last l m l' hsent hfin]
      simp
  · -- an empty message
    obtain ⟨hset', f, written, -, he⟩ := receive_extends ha hS hrst'
      (.of_empty rfl (hk.trans ht.seqnos_le)) hset
    exact hf.insert ht (.inr ⟨rfl, .inl rfl⟩) (fun hfin => absurd hfin Bool.false_ne_true) hset' he

end Following

/-! ### A segment that has arrived -/

namespace Direction

variable {h : SenderRun} {b : PeerRun} {m : TCPSenderMessage} {l l' : List TCPSenderMessage}

/-- What the receiver gets to with a segment that it needs. -/
theorem next_lt (hd : Direction h.sender.isn h b) (hf : Following h b.peer.receiver)
    (ht : Tiling h.accepted h.sender h.sent) (hS : (payloads h.sent).length + 2 < 2 ^ 31)
    (hsent : h.sent = l ++ m :: l') (hset : b.peer.receiver.isnSet = true)
    (hopen : b.peer.receiver.output.eof = false)
    (hlo : (payloads l).length ≤ b.peer.receiver.next)
    (hhi : b.peer.receiver.next < (payloads l).length + m.payload.length + m.FIN.toNat)
    (hroom : 0 < b.peer.receiver.output.availableCapacity.toNat) :
    b.peer.receiver.ackPos < (b.peer.receiver.receive m).ackPos := by
  obtain ⟨-, f, written, hfl, he⟩ := ht.receive_segment hS hsent hd.assembling (.inl hset)
  generalize hr' : b.peer.receiver.receive m = r' at he
  generalize hr : b.peer.receiver = r at *
  have hnext : r'.next = r.next + written.length := he.next_eq
  have hack : r.ackPos = r.next + 1 := by rw [ackPos, hopen]; rfl
  have hack' : r'.ackPos = r'.next + 1 + r'.output.eof.toNat := rfl
  rw [hack, hack', hnext]
  by_cases hin : r.next < (payloads l).length + m.payload.length
  · -- the next byte is in the payload
    have hne : written ≠ [] := by
      rintro rfl
      have hcovers := Set.ext_iff.mp he.covers_eq r.next
      have hmem : r.next ∈ covers r'.reassembler.waiting := by
        have hright : r.next ∈ Set.Ico f.toNat (f.toNat + m.payload.length) ∩
            Set.Ico r.reassembler.nextByteIndex.toNat (r.reassembler.nextByteIndex.toNat
              + r.reassembler.availableCapacity.toNat) := by
          rw [hfl]
          exact ⟨⟨hlo, hin⟩, le_rfl, Nat.lt_add_of_pos_right hroom⟩
        refine (hcovers.mpr (.inr hright)).resolve_right ?_
        rintro ⟨-, hlt⟩
        exact lt_irrefl _ hlt
      obtain ⟨e, hmem, hle, -⟩ := mem_covers.mp hmem
      have hlt := he.slices.wf.next_lt e hmem
      have hsame : r'.reassembler.nextByteIndex.toNat = r.next := hnext
      omega
    have hpos := List.length_pos_of_ne_nil hne
    omega
  · -- only the FIN is missing
    have hfin : m.FIN = true := by
      by_contra hfin
      rw [Bool.not_eq_true] at hfin
      rw [hfin, Bool.toNat_false] at hhi
      omega
    rw [hfin, Bool.toNat_true] at hhi
    have hm : m ∈ h.sent := hsent ▸ List.mem_append_right l List.mem_cons_self
    have hfull : r.next = (payloads h.sent).length := by
      rw [hsent, ht.fin_last l m l' hsent hfin]
      simp
      omega
    have hnil : m.payload = [] := by
      by_contra hne
      have heof := hf.closed m hm hfin hne hfull
      rw [hopen] at heof
      cases heof
    have hfnext : f = r.reassembler.nextByteIndex := by
      have hsame : r.reassembler.nextByteIndex.toNat = r.next := rfl
      rw [← UInt64.toNat_inj, hfl, hsame]
      rw [hnil, List.length_nil] at hhi
      omega
    have heof : r'.output.eof = true := he.eof_iff.mpr (.inr (.inl ⟨hnil, hfin, hfnext⟩))
    rw [heof, Bool.toNat_true]
    omega

/-- The receiver acknowledges no less than before. -/
theorem ackPos_le_receive (hd : Direction h.sender.isn h b)
    (ht : Tiling h.accepted h.sender h.sent) (hS : (payloads h.sent).length + 2 < 2 ^ 31)
    (hmsg : PeerRun.FromSender h m) :
    b.peer.receiver.ackPos ≤ (b.peer.receiver.receive m).ackPos := by
  obtain ⟨written, hr⟩ := receive_spec hd.assembling hS (hmsg.genuine ht)
  have hnext := hr.next_eq
  have heof : b.peer.receiver.output.eof.toNat
      ≤ (b.peer.receiver.receive m).output.eof.toNat := Bool.toNat_le_toNat hr.eof
  rw [ackPos, ackPos]
  omega

/-- **Going on.**  The segment that the last acknowledgment falls in. -/
theorem advances (hd : Direction h.sender.isn h b) (hf : Following h b.peer.receiver)
    (ht : Tiling h.accepted h.sender h.sent) (hS : (payloads h.sent).length + 2 < 2 ^ 31)
    (hsent : h.sent = l ++ m :: l') (hlo : seqnos l ≤ h.acked)
    (hhi : h.acked < seqnos l + m.sequenceLength)
    (hroom : 0 < b.peer.receiver.output.availableCapacity.toNat) :
    (b.peer.receiver.receive m).isnSet = true ∧
      h.acked < (b.peer.receiver.receive m).ackPos := by
  have hm : m ∈ h.sent := hsent ▸ List.mem_append_right l List.mem_cons_self
  have hmono := hd.ackPos_le_receive ht hS (.inr (.inl hm))
  obtain ⟨hlen, hzero⟩ := ht.seqnos_before hsent
  by_cases hset : b.peer.receiver.isnSet = true
  swap
  · -- the first segment, which has the SYN
    have hacked := hf.deaf (by simpa using hset)
    have hsyn : m.SYN = true := (ht.syn_iff l m l' hsent).mpr (hzero (by omega))
    refine ⟨(ht.receive_segment hS hsent hd.assembling (.inr hsyn)).1, ?_⟩
    rw [hacked, ackPos]
    omega
  refine ⟨(ht.receive_segment hS hsent hd.assembling (.inl hset)).1, ?_⟩
  by_cases hbeyond : h.acked < b.peer.receiver.ackPos
  · omega
  have hacked : h.acked = b.peer.receiver.ackPos := le_antisymm hd.acked_le (not_lt.mp hbeyond)
  -- not everything is acknowledged, so that the stream is still open
  have hopen : b.peer.receiver.output.eof = false := by
    by_contra hclosed
    rw [Bool.not_eq_false] at hclosed
    obtain ⟨hknown, hfull⟩ := hd.assembling.slices.eof hclosed
    rw [ht.finIn_eq] at hknown
    have hsyn : h.sender.senderSyn = true := ht.senderSyn_iff.mpr (hd.synced hset)
    have hseq := ht.seqnos_eq
    have hle : seqnos l + m.sequenceLength ≤ seqnos h.sent := by
      rw [hsent, seqnos_append, seqnos_cons]
      omega
    have hnext : b.peer.receiver.next = (payloads h.sent).length := hfull
    rw [hsyn, hknown, Bool.toNat_true] at hseq
    rw [ackPos, hclosed, Bool.toNat_true] at hacked
    omega
  have hpos : h.acked = b.peer.receiver.next + 1 := by
    rw [hacked, ackPos, hopen, Bool.toNat_false]
  rw [hacked]
  rw [TCPSenderMessage.sequenceLength] at hhi
  refine hd.next_lt hf ht hS hsent hset hopen ?_ ?_ hroom
  · omega
  · rcases eq_or_ne l [] with rfl | hne
    · have hsyn := m.SYN.toNat_le
      rw [seqnos_nil] at hhi
      rw [payloads_nil, List.length_nil]
      omega
    · have hnot : m.SYN = false := by
        by_contra htrue
        exact hne ((ht.syn_iff l m l' hsent).mp (by simpa using htrue))
      have hpos' : seqnos l ≠ 0 := fun hnone => hne (hzero hnone)
      rw [hnot, Bool.toNat_false] at hhi
      omega

end Direction

end Minnow
