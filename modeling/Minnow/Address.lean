import Minnow.Basic

namespace Minnow

/-!
# Addresses

An `Address` wraps a socket address.  Its numbers are turned into strings and back by the C
library, `NetDb`; the addresses of IPv4 are read without it.
-/

/-- An `Address` so far as IPv4 is concerned. -/
structure Address where
  /-- `ss_family` -/
  family : UInt16 := 2
  size : ℕ := 16
  /-- `sin_addr`, in host byte order -/
  addr : UInt32 := 0
  /-- `sin_port`, in host byte order -/
  port : UInt16 := 0
deriving DecidableEq, Repr

/-- The conversions of the C library. -/
structure NetDb where
  /-- `getnameinfo` for a numeric host and a numeric service -/
  getnameinfo : Address → Except StdException (String × String)
  /-- `getaddrinfo` for a numeric host and a numeric service of IPv4 -/
  getaddrinfo : String → String → Except StdException Address
  /-- `inet_ntoa` of an address in host byte order -/
  inetNtoa : UInt32 → String
  /-- `std::stoi` -/
  stoi : String → Except StdException ℤ

namespace Address

/-- The family of an IPv4 address. -/
def AF_INET : UInt16 := 2

/-- The family of an IPv6 address. -/
def AF_INET6 : UInt16 := 10

/-- `sizeof( sockaddr_in )` -/
def SOCKADDR_IN : ℕ := 16

/-- The 32 bits of an IPv4 address. -/
def ipv4Numeric (a : Address) : Except StdException UInt32 :=
  if a.family ≠ AF_INET ∨ a.size ≠ SOCKADDR_IN then
    .error (.runtimeError "ipv4_numeric called on non-IPV4 address")
  else .ok a.addr

/-- `Address::from_ipv4_numeric` -/
def fromIpv4Numeric (addr : UInt32) : Address := { addr }

/-- The constructor from a dotted quad and a port. -/
def ofIp (db : NetDb) (ip : String) (port : UInt16) : Except StdException Address :=
  db.getaddrinfo ip (toString port.toNat)

/-- The host and the port as `getnameinfo` writes them. -/
def ipPort (db : NetDb) (a : Address) : Except StdException (String × UInt16) :=
  if a.family ≠ AF_INET ∧ a.family ≠ AF_INET6 then
    .error (.runtimeError "Address::ip_port() called on non-Internet address")
  else do
    let (ip, port) ← db.getnameinfo a
    let port ← db.stoi port
    return (ip, UInt16.ofInt port)

/-- `port()` -/
def portOf (db : NetDb) (a : Address) : Except StdException UInt16 := (·.2) <$> a.ipPort db

/-- The address is one of IPv4. -/
structure IsIPv4 (a : Address) : Prop where
  family_eq : a.family = AF_INET
  size_eq : a.size = SOCKADDR_IN

/-- The bits of an IPv4 address are there. -/
theorem IsIPv4.ipv4Numeric_eq {a : Address} (h : a.IsIPv4) : a.ipv4Numeric = .ok a.addr := by
  unfold ipv4Numeric
  rw [if_neg]
  rintro (hne | hne)
  · exact hne h.family_eq
  · exact hne h.size_eq

end Address

/-- The service name of an address of IPv4 reads as its port. -/
def NetDb.ReadsPorts (db : NetDb) : Prop :=
  ∀ a : Address, a.IsIPv4 → ∃ host service, db.getnameinfo a = .ok (host, service) ∧
    db.stoi service = .ok a.port.toNat

/-- A port that was written as a number is read back. -/
theorem NetDb.ReadsPorts.portOf_eq {db : NetDb} (hdb : db.ReadsPorts) {a : Address}
    (h : a.IsIPv4) : a.portOf db = .ok a.port := by
  obtain ⟨host, service, hname, hport⟩ := hdb a h
  have hfamily : ¬ (a.family ≠ Address.AF_INET ∧ a.family ≠ Address.AF_INET6) :=
    fun hne => hne.1 h.family_eq
  have hround : UInt16.ofInt (a.port.toNat : ℤ) = a.port := by
    rw [← UInt16.toNat_inj]
    have := a.port.toNat_lt
    simp [UInt16.ofInt]
    omega
  unfold Address.portOf Address.ipPort
  rw [if_neg hfamily, hname]
  simp only [bind, Except.bind, hport, hround]
  rfl

/-- The conversions of addresses and ports to strings and back are inverse to each other. -/
structure NetDb.Inverse (db : NetDb) : Prop where
  readsPorts : db.ReadsPorts
  readsBack : ∀ addr port, Address.ofIp db (db.inetNtoa addr) port = .ok { addr, port }

/-- The conversions in decimal, as the C library makes them. -/
def NetDb.decimal : NetDb where
  getnameinfo a := .ok (dottedQuad a.addr, toString a.port.toNat)
  getaddrinfo host service :=
    match (host.splitOn ".").mapM String.toNat?, service.toNat? with
    | some [b₃, b₂, b₁, b₀], some port =>
      if b₃ < 256 ∧ b₂ < 256 ∧ b₁ < 256 ∧ b₀ < 256 ∧ port < 65536 then
        .ok { addr := UInt32.ofNat (((b₃ * 256 + b₂) * 256 + b₁) * 256 + b₀)
              port := UInt16.ofNat port }
      else .error (.runtimeError "getaddrinfo")
    | _, _ => .error (.runtimeError "getaddrinfo")
  inetNtoa := dottedQuad
  stoi s :=
    match s.toNat? with
    | some n => .ok n
    | none => .error (.runtimeError "stoi")
where
  dottedQuad (addr : UInt32) : String :=
    let byte (shift : UInt32) : String := toString (addr >>> shift).toUInt8.toNat
    byte 24 ++ "." ++ byte 16 ++ "." ++ byte 8 ++ "." ++ byte 0

/-- Decimal numbers are read back. -/
theorem NetDb.decimal_readsPorts : NetDb.decimal.ReadsPorts := by
  intro a _
  refine ⟨_, _, rfl, ?_⟩
  show (match (Nat.repr a.port.toNat).toNat? with
    | some n => Except.ok (n : ℤ)
    | none => .error (StdException.runtimeError "stoi")) = _
  rw [Nat.toNat?_repr]

/-! ### Numeric hosts -/

/-- The address with these bytes and this port, if they are in range. -/
def NetDb.ofNumbers : Option (List ℕ) → Option ℕ → Except StdException Address
  | some [b₃, b₂, b₁, b₀], some port =>
    if b₃ < 256 ∧ b₂ < 256 ∧ b₁ < 256 ∧ b₀ < 256 ∧ port < 65536 then
      .ok { addr := UInt32.ofNat (((b₃ * 256 + b₂) * 256 + b₁) * 256 + b₀)
            port := UInt16.ofNat port }
    else .error (.runtimeError "getaddrinfo")
  | _, _ => .error (.runtimeError "getaddrinfo")

/-- The same conversions, with the host split as a list of characters. -/
def NetDb.numeric : NetDb :=
  { NetDb.decimal with
    getaddrinfo := fun host service =>
      ofNumbers ((host.toList.splitOn '.').mapM fun part => (String.ofList part).toNat?)
        service.toNat? }

theorem NetDb.numeric_getaddrinfo (host service : String) :
    NetDb.numeric.getaddrinfo host service
      = ofNumbers ((host.toList.splitOn '.').mapM fun part => (String.ofList part).toNat?)
        service.toNat? := rfl

/-- A number has no dot in it. -/
theorem dot_not_mem_toString (n : ℕ) : '.' ∉ (toString n).toList := by
  show '.' ∉ (Nat.repr n).toList
  rw [Nat.repr, String.toList_ofList]
  intro hdot
  have hdigit := Nat.isDigit_of_mem_toDigits (by decide) (by decide) hdot
  simp at hdigit

/-- The parts of a dotted quad. -/
theorem splitOn_dottedQuad (addr : UInt32) :
    (NetDb.decimal.dottedQuad addr).toList.splitOn '.'
      = [24, 16, 8, 0].map fun shift : UInt32 =>
        (toString (addr >>> shift).toUInt8.toNat).toList := by
  have hdot : ".".toList = ['.'] := rfl
  unfold NetDb.decimal.dottedQuad
  simp only [String.toList_append, List.append_assoc, hdot, List.nil_append, List.cons_append,
    List.splitOn_append_cons_self, List.splitOn_eq_singleton (dot_not_mem_toString _)]
  rfl

/-- A number is read back from its digits. -/
theorem toNat?_ofList_toString (n : ℕ) : (String.ofList (toString n).toList).toNat? = some n := by
  rw [String.ofList_toList]
  exact Nat.toNat?_repr n

/-- **Numbers are read back.** -/
theorem NetDb.numeric_inverse : NetDb.numeric.Inverse where
  readsPorts := NetDb.decimal_readsPorts
  readsBack := by
    intro addr port
    have hlt : ∀ b : UInt8, b.toNat < 256 := UInt8.toNat_lt
    have hntoa : NetDb.numeric.inetNtoa = NetDb.decimal.dottedQuad := rfl
    have hport : (toString port.toNat).toNat? = some port.toNat := Nat.toNat?_repr _
    have hparts : ((NetDb.decimal.dottedQuad addr).toList.splitOn '.').mapM
        (fun part => (String.ofList part).toNat?)
        = some [(addr >>> 24).toUInt8.toNat, (addr >>> 16).toUInt8.toNat,
          (addr >>> 8).toUInt8.toNat, (addr >>> 0).toUInt8.toNat] := by
      rw [splitOn_dottedQuad]
      simp only [List.map_cons, List.map_nil, List.mapM_cons, List.mapM_nil,
        toNat?_ofList_toString]
      rfl
    have hbytes : (((addr >>> 24).toUInt8.toNat * 256 + (addr >>> 16).toUInt8.toNat) * 256
        + (addr >>> 8).toUInt8.toNat) * 256 + (addr >>> 0).toUInt8.toNat = addr.toNat := by
      have haddr := addr.toNat_lt
      have hbyte : ∀ shift : UInt32, (addr >>> shift).toUInt8.toNat
          = addr.toNat / 2 ^ (shift.toNat % 32) % 256 := by
        intro shift
        rw [UInt32.toNat_toUInt8, UInt32.toNat_shiftRight, Nat.shiftRight_eq_div_pow]
      rw [hbyte, hbyte, hbyte, hbyte]
      show ((addr.toNat / 2 ^ 24 % 256 * 256 + addr.toNat / 2 ^ 16 % 256) * 256
        + addr.toNat / 2 ^ 8 % 256) * 256 + addr.toNat / 2 ^ 0 % 256 = _
      omega
    unfold Address.ofIp
    rw [numeric_getaddrinfo, hntoa, hparts, hport, ofNumbers,
      if_pos ⟨hlt _, hlt _, hlt _, hlt _, port.toNat_lt⟩, hbytes, UInt32.ofNat_toNat,
      UInt16.ofNat_toNat]

end Minnow
