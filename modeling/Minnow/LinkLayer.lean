import Minnow.IPv4

namespace Minnow

/-!
# Ethernet frames and ARP messages

`ARPMessage.parse` / `ARPMessage.gives_parse` — what is read is `ARPMessage.ofBytes`, also when the
flag is raised: the fields that are not there, and the addresses of a message that is not
supported, keep the values they had.
-/

/-! ### Ethernet -/

/-- The six bytes of a link-layer address, in the order of the wire. -/
structure EthernetAddress where
  b0 : UInt8 := 0
  b1 : UInt8 := 0
  b2 : UInt8 := 0
  b3 : UInt8 := 0
  b4 : UInt8 := 0
  b5 : UInt8 := 0
deriving DecidableEq, Repr

/-- The address that every interface takes frames for. -/
def ETHERNET_BROADCAST : EthernetAddress := ⟨0xff, 0xff, 0xff, 0xff, 0xff, 0xff⟩

namespace EthernetAddress

open Minnow.Parser in
/-- `for ( auto& b : address ) { parser.integer( b ); }` -/
def parse (a : EthernetAddress) : ParserM EthernetAddress := do
  let b0 ← integer8 a.b0
  let b1 ← integer8 a.b1
  let b2 ← integer8 a.b2
  let b3 ← integer8 a.b3
  let b4 ← integer8 a.b4
  let b5 ← integer8 a.b5
  return { b0, b1, b2, b3, b4, b5 }

/-- The six bytes, one after the other. -/
def serialize (a : EthernetAddress) (serializer : Serializer) : Serializer :=
  serializer
    |>.integer8 a.b0
    |>.integer8 a.b1
    |>.integer8 a.b2
    |>.integer8 a.b3
    |>.integer8 a.b4
    |>.integer8 a.b5

/-- The address at a position; a byte that is not there keeps the value it had. -/
def ofBytes (a : EthernetAddress) (b : Bytes) (pos : ℕ) : EthernetAddress :=
  { b0 := field8 b pos a.b0
    b1 := field8 b (pos + 1) a.b1
    b2 := field8 b (pos + 2) a.b2
    b3 := field8 b (pos + 3) a.b3
    b4 := field8 b (pos + 4) a.b4
    b5 := field8 b (pos + 5) a.b5 }

end EthernetAddress

/-- Where a frame goes, where it comes from, and what it carries. -/
structure EthernetHeader where
  dst : EthernetAddress := {}
  src : EthernetAddress := {}
  type : UInt16 := 0
deriving DecidableEq, Repr

namespace EthernetHeader

/-- The frame carries a datagram of version 4. -/
def TYPE_IPv4 : UInt16 := 0x800

/-- The frame carries an ARP message. -/
def TYPE_ARP : UInt16 := 0x806

end EthernetHeader

/-- A header, and the payload in the buffers it was received or serialized into. -/
structure EthernetFrame where
  header : EthernetHeader := {}
  payload : List Ref := []
deriving DecidableEq, Repr

/-! ### ARP -/

/-- The defaults are those of a message between Ethernet and IPv4 addresses. -/
structure ARPMessage where
  hardwareType : UInt16 := 1
  protocolType : UInt16 := EthernetHeader.TYPE_IPv4
  hardwareAddressSize : UInt8 := 6
  protocolAddressSize : UInt8 := 4
  opcode : UInt16 := 0
  senderEthernetAddress : EthernetAddress := {}
  senderIpAddress : UInt32 := 0
  targetEthernetAddress : EthernetAddress := {}
  targetIpAddress : UInt32 := 0
deriving DecidableEq, Repr

namespace ARPMessage

/-- The bytes of a message on the wire. -/
def LENGTH : ℕ := 28

/-- The hardware type of Ethernet. -/
def TYPE_ETHERNET : UInt16 := 1

/-- Who has the target's address? -/
def OPCODE_REQUEST : UInt16 := 1

/-- The sender has it. -/
def OPCODE_REPLY : UInt16 := 2

/-- Is this a request or a reply between Ethernet and IPv4 addresses? -/
def supported (m : ARPMessage) : Bool :=
  m.hardwareType = TYPE_ETHERNET ∧ m.protocolType = EthernetHeader.TYPE_IPv4 ∧
    m.hardwareAddressSize = 6 ∧ m.protocolAddressSize = 4 ∧
    (m.opcode = OPCODE_REQUEST ∨ m.opcode = OPCODE_REPLY)

open Minnow.Parser in
/-- The fields up to the opcode are read first; a message that is not supported raises the flag, and
    its addresses are not read. -/
def parse (m : ARPMessage) : ParserM ARPMessage := do
  let hardwareType ← integer16 m.hardwareType
  let protocolType ← integer16 m.protocolType
  let hardwareAddressSize ← integer8 m.hardwareAddressSize
  let protocolAddressSize ← integer8 m.protocolAddressSize
  let opcode ← integer16 m.opcode
  let m := { m with hardwareType, protocolType, hardwareAddressSize, protocolAddressSize, opcode }
  if ¬ m.supported then
    setError
    return m
  let senderEthernetAddress ← m.senderEthernetAddress.parse
  let senderIpAddress ← integer32 m.senderIpAddress
  let targetEthernetAddress ← m.targetEthernetAddress.parse
  let targetIpAddress ← integer32 m.targetIpAddress
  return { m with senderEthernetAddress, senderIpAddress, targetEthernetAddress, targetIpAddress }

/-- A message that is not supported is not written. -/
def serialize (m : ARPMessage) (serializer : Serializer) : Except StdException Serializer :=
  if ¬ m.supported then
    .error (.runtimeError
      "ARPMessage: unsupported field combination (must be Ethernet/IP, and request or reply)")
  else
    let serializer := serializer
      |>.integer16 m.hardwareType
      |>.integer16 m.protocolType
      |>.integer8 m.hardwareAddressSize
      |>.integer8 m.protocolAddressSize
      |>.integer16 m.opcode
    let serializer := (m.senderEthernetAddress.serialize serializer).integer32 m.senderIpAddress
    .ok ((m.targetEthernetAddress.serialize serializer).integer32 m.targetIpAddress)

/-- The types, sizes and opcode in some bytes. -/
def typesOfBytes (m : ARPMessage) (b : Bytes) : ARPMessage :=
  { m with
    hardwareType := field16 b 0 m.hardwareType
    protocolType := field16 b 2 m.protocolType
    hardwareAddressSize := field8 b 4 m.hardwareAddressSize
    protocolAddressSize := field8 b 5 m.protocolAddressSize
    opcode := field16 b 6 m.opcode }

/-- The message in some bytes.  Fields that are not there keep the values they had, and so do
    the addresses when the message is not supported. -/
def ofBytes (m : ARPMessage) (b : Bytes) : ARPMessage :=
  let m := m.typesOfBytes b
  if ¬ m.supported then m
  else
    { m with
      senderEthernetAddress := m.senderEthernetAddress.ofBytes b 8
      senderIpAddress := field32 b 14 m.senderIpAddress
      targetEthernetAddress := m.targetEthernetAddress.ofBytes b 18
      targetIpAddress := field32 b 24 m.targetIpAddress }

/-! ### What is read of a message -/

section

open StateExcept

variable {payload : List Ref}

/-- An address is read as `ofBytes`, six bytes further on. -/
theorem gives_address (ws : List ℕ) (a : EthernetAddress) :
    Gives (Parser.Read payload ws) (ReadsEmpty payload) a.parse
      (a.ofBytes (concat payload) ws.sum) (Parser.Read payload (ws ++ [1, 1, 1, 1, 1, 1])) := by
  have hbyte : ∀ (k : ℕ) (out : UInt8), Gives (Parser.Read payload (ws ++ List.replicate k 1))
      (ReadsEmpty payload) (Parser.integer8 out) (field8 (concat payload) (ws.sum + k) out)
      (Parser.Read payload (ws ++ List.replicate (k + 1) 1)) := by
    intro k out
    have h : Gives (Parser.Read payload (ws ++ List.replicate k 1)) _ (Parser.integer8 out) _ _ :=
      Parser.gives_integer8 _ out
    rwa [List.append_assoc, ← List.replicate_succ', List.sum_append, List.sum_replicate,
      smul_eq_mul, mul_one] at h
  have h : Gives (Parser.Read payload (ws ++ List.replicate 0 1)) (ReadsEmpty payload) a.parse
      (a.ofBytes (concat payload) ws.sum) (Parser.Read payload (ws ++ List.replicate 6 1)) :=
    (hbyte 0 a.b0).bind <| (hbyte 1 a.b1).bind <| (hbyte 2 a.b2).bind <|
    (hbyte 3 a.b3).bind <| (hbyte 4 a.b4).bind <| (hbyte 5 a.b5).bind <| .pure _
  rwa [List.replicate_zero, List.append_nil] at h

/-- **Reading a message.**  The flag is raised on a message that is cut off or not supported, and
    what is left of it is there all the same. -/
theorem gives_parse (m : ARPMessage) :
    Gives (Parser.Read payload []) (ReadsEmpty payload) m.parse (m.ofBytes (concat payload))
      fun p => p.error = decide (¬ (m.typesOfBytes (concat payload)).supported ∨
        (concat payload).length < LENGTH) := by
  -- the types decide whether the addresses are read at all
  refine (Parser.gives_integer16 _ _).bind <|
    (Parser.gives_integer16 _ _).bind <|
    (Parser.gives_integer8 _ _).bind <|
    (Parser.gives_integer8 _ _).bind <|
    (Parser.gives_integer16 _ _).bind <|
    .ite (fun hnot => ?_) (fun hyes => ?_)
  · have hof : m.ofBytes (concat payload) = m.typesOfBytes (concat payload) := if_pos hnot
    have hflag : decide (¬ (m.typesOfBytes (concat payload)).supported ∨
        (concat payload).length < LENGTH) = true := decide_eq_true (.inl hnot)
    rw [hof, hflag]
    exact Gives.bind (.modify fun p _ => rfl) (.pure _)
  · have hof : m.ofBytes (concat payload) = _ := if_neg hyes
    have hflag : decide (¬ (m.typesOfBytes (concat payload)).supported ∨
        (concat payload).length < LENGTH) = decide ((concat payload).length < LENGTH) := by
      rw [decide_eq_decide]
      exact or_iff_right hyes
    rw [hof, hflag]
    exact (gives_address _ _).bind <|
      (Parser.gives_integer32 _ _).bind <|
      (gives_address _ _).bind <|
      (Parser.gives_integer32 _ _).bind <|
      Gives.mono (fun _ h => h) (fun p hp => hp.error_eq) (.pure _)
end

end ARPMessage

end Minnow
