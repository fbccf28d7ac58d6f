import Minnow.LinkLayer
import Minnow.WireFormat

namespace Minnow

/-!
# ARP messages on the wire

A message that is written is read back as it was.

* `ARPMessage.serialize_wire` — what is written are the fields;
* `ARPMessage.ofBytes_bytes` — a message on the wire is read back.
-/

namespace EthernetAddress

/-- What `serialize` writes. -/
def fields (a : EthernetAddress) : List (ℕ × ℕ) :=
  [(1, a.b0.toNat), (1, a.b1.toNat), (1, a.b2.toNat), (1, a.b3.toNat), (1, a.b4.toNat),
    (1, a.b5.toNat)]

/-- An address is read back at its place among other fields. -/
theorem ofBytes_numbers (a₀ a : EthernetAddress) (before behind : List (ℕ × ℕ)) :
    a₀.ofBytes (numbers (before ++ a.fields ++ behind)) (before.map (·.1)).sum = a := by
  have hbyte : ∀ (k : ℕ) (x out : UInt8), a.fields[k]? = some (1, x.toNat) → k < 6 →
      field8 (numbers (before ++ a.fields ++ behind)) ((before.map (·.1)).sum + k) out = x := by
    intro k x out hk hlt
    have hget : (before ++ a.fields ++ behind)[before.length + k]? = some (1, x.toNat) := by
      rw [List.append_assoc, List.getElem?_append_right (Nat.le_add_right _ _),
        Nat.add_sub_cancel_left, List.getElem?_append_left (by simpa [fields] using hlt), hk]
    have hpos : (((before ++ a.fields ++ behind).take (before.length + k)).map (·.1)).sum
        = (before.map (·.1)).sum + k := by
      rw [List.append_assoc, List.take_length_add_append, List.map_append, List.sum_append]
      congr 1
      interval_cases k <;> rfl
    have hfield := field8_numbers (before.length + k) hget [] out
    rwa [List.append_nil, hpos] at hfield
  simp only [ofBytes]
  rw [hbyte 1 a.b1 _ rfl (by decide), hbyte 2 a.b2 _ rfl (by decide),
    hbyte 3 a.b3 _ rfl (by decide), hbyte 4 a.b4 _ rfl (by decide), hbyte 5 a.b5 _ rfl (by decide)]
  have hfirst := hbyte 0 a.b0 a₀.b0 rfl (by decide)
  rw [Nat.add_zero] at hfirst
  rw [hfirst]

end EthernetAddress

namespace ARPMessage

/-- The fields before the addresses. -/
def types (m : ARPMessage) : List (ℕ × ℕ) :=
  [(2, m.hardwareType.toNat),
    (2, m.protocolType.toNat),
    (1, m.hardwareAddressSize.toNat),
    (1, m.protocolAddressSize.toNat),
    (2, m.opcode.toNat)]

/-- What `serialize` writes. -/
def fields (m : ARPMessage) : List (ℕ × ℕ) :=
  m.types ++ m.senderEthernetAddress.fields ++ [(4, m.senderIpAddress.toNat)]
    ++ m.targetEthernetAddress.fields ++ [(4, m.targetIpAddress.toNat)]

/-- The bytes of the message on the wire. -/
def bytes (m : ARPMessage) : Bytes := numbers m.fields

/-- **What is written.** -/
theorem serialize_wire {m : ARPMessage} (h : m.supported) :
    ∃ out, Minnow.serialize m.serialize = .ok out ∧ concat out = m.bytes := by
  have hwrite : m.serialize {} = .ok _ := if_neg (not_not.mpr h)
  refine ⟨_, serialize_of_ok hwrite, ?_⟩
  rw [Serializer.concat_finish]
  simp [Serializer.content, EthernetAddress.serialize, Serializer.integer8, Serializer.integer16,
    Serializer.integer32, Serializer.integer_eq, bytes, fields, types, EthernetAddress.fields]

/-- **A message on the wire** is read back. -/
theorem ofBytes_bytes {m : ARPMessage} (h : m.supported) (m₀ : ARPMessage) :
    m₀.ofBytes m.bytes = m := by
  have hwhole : m.bytes = numbers m.fields ++ [] := (List.append_nil _).symm
  have h8 : ∀ (k pos : ℕ) (x out : UInt8), m.fields[k]? = some (1, x.toNat) →
      ((m.fields.take k).map (·.1)).sum = pos → field8 m.bytes pos out = x := by
    rintro k _ x out hk rfl
    rw [hwhole]
    exact field8_numbers k hk [] out
  have h16 : ∀ (k pos : ℕ) (x out : UInt16), m.fields[k]? = some (2, x.toNat) →
      ((m.fields.take k).map (·.1)).sum = pos → field16 m.bytes pos out = x := by
    rintro k _ x out hk rfl
    rw [hwhole]
    exact field16_numbers k hk [] out
  have h32 : ∀ (k pos : ℕ) (x out : UInt32), m.fields[k]? = some (4, x.toNat) →
      ((m.fields.take k).map (·.1)).sum = pos → field32 m.bytes pos out = x := by
    rintro k _ x out hk rfl
    rw [hwhole]
    exact field32_numbers k hk [] out
  have hhtype := h16 0 0 m.hardwareType m₀.hardwareType rfl rfl
  have hptype := h16 1 2 m.protocolType m₀.protocolType rfl rfl
  have hhsize := h8 2 4 m.hardwareAddressSize m₀.hardwareAddressSize rfl rfl
  have hpsize := h8 3 5 m.protocolAddressSize m₀.protocolAddressSize rfl rfl
  have hopcode := h16 4 6 m.opcode m₀.opcode rfl rfl
  have hsenderIp := h32 11 14 m.senderIpAddress m₀.senderIpAddress rfl
    (by simp [fields, types, EthernetAddress.fields])
  have htargetIp := h32 18 24 m.targetIpAddress m₀.targetIpAddress rfl
    (by simp [fields, types, EthernetAddress.fields])
  have hsender : m₀.senderEthernetAddress.ofBytes m.bytes 8 = m.senderEthernetAddress := by
    have hsplit : m.bytes = numbers (m.types ++ m.senderEthernetAddress.fields
        ++ ([(4, m.senderIpAddress.toNat)] ++ m.targetEthernetAddress.fields
          ++ [(4, m.targetIpAddress.toNat)])) := by
      rw [bytes, fields]
      simp only [List.append_assoc]
    rw [hsplit]
    exact EthernetAddress.ofBytes_numbers _ _ m.types _
  have htarget : m₀.targetEthernetAddress.ofBytes m.bytes 18 = m.targetEthernetAddress := by
    have hbefore : (List.map (fun w : ℕ × ℕ => w.1) (m.types ++ m.senderEthernetAddress.fields
        ++ [(4, m.senderIpAddress.toNat)])).sum = 18 := by
      simp [types, EthernetAddress.fields]
    rw [← hbefore]
    exact EthernetAddress.ofBytes_numbers _ _ _ [(4, m.targetIpAddress.toNat)]
  -- the types are read first, and are those of a message that is supported
  have htypes : m₀.typesOfBytes m.bytes = { m₀ with
      hardwareType := m.hardwareType
      protocolType := m.protocolType
      hardwareAddressSize := m.hardwareAddressSize
      protocolAddressSize := m.protocolAddressSize
      opcode := m.opcode } := by
    rw [typesOfBytes, hhtype, hptype, hhsize, hpsize, hopcode]
  have hsupported : (m₀.typesOfBytes m.bytes).supported = true := by
    rw [htypes]
    exact h
  unfold ofBytes
  dsimp only
  rw [if_neg (not_not.mpr hsupported), htypes]
  dsimp only
  rw [hsender, hsenderIp, htarget, htargetIp]

end ARPMessage

end Minnow
