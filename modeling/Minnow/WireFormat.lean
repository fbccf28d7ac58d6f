import Minnow.Checksum

namespace Minnow

/-!
# Headers on the wire

What a serializer writes is a sequence of fields, each a width and a number, and what a parser
reads at the place of a field is that number.

* `field_numbers` — reading back a field;
* `IPv4Header.ofBytes_bytes` — a header on the wire is read back, whatever comes behind it;
* `IPv4Header.toNat_checksum` — its checksum is the complement of the sum of its words;
* `IPv4Datagram.serialize_wire`, `IPv4Datagram.parse_wire` — a datagram without options on the
  wire is read back with its checksum recomputed, and accepted if that is the one it had.
-/

/-! ### Fields -/

/-- The bytes of a number, the most significant one first. -/
def number (size val : ℕ) : Bytes :=
  (List.range size).map fun i => UInt8.ofNat (val >>> ((size - i - 1) * 8))

/-- The bytes of fields, each given by its width and its value. -/
def numbers (fields : List (ℕ × ℕ)) : Bytes := fields.flatMap fun f => number f.1 f.2

@[simp] theorem length_number (size val : ℕ) : (number size val).length = size := by
  simp [number]

@[simp] theorem numbers_nil : numbers [] = [] := rfl

@[simp] theorem numbers_cons (f : ℕ × ℕ) (fields : List (ℕ × ℕ)) :
    numbers (f :: fields) = number f.1 f.2 ++ numbers fields := rfl

/-- Some fields, and others behind them. -/
theorem numbers_append (fields fields' : List (ℕ × ℕ)) :
    numbers (fields ++ fields') = numbers fields ++ numbers fields' := List.flatMap_append

/-- The fields are as long as their sizes say. -/
theorem length_numbers (fields : List (ℕ × ℕ)) :
    (numbers fields).length = (fields.map (·.1)).sum := by
  induction fields with
  | nil => rfl
  | cons f fields ih => simp [ih]

/-- The first byte of a number is its highest. -/
theorem number_succ (size val : ℕ) :
    number (size + 1) val = UInt8.ofNat (val / 256 ^ size) :: number size val := by
  have hpow : 256 ^ size = 2 ^ (size * 8) := by rw [Nat.mul_comm, pow_mul]; rfl
  unfold number
  rw [List.range_succ_eq_map, List.map_cons, List.map_map, hpow, ← Nat.shiftRight_eq_div_pow]
  congr 1
  refine List.map_congr_left fun i _ => ?_
  simp only [Function.comp_apply, Nat.succ_eq_add_one, Nat.reduceSubDiff]

/-- A number is read back, modulo what its bytes can hold. -/
theorem bigEndian_number (size out val : ℕ) :
    bigEndian out (number size val) = out * 256 ^ size + val % 256 ^ size := by
  induction size generalizing out with
  | zero => simp [number, bigEndian, Nat.mod_one]
  | succ size ih =>
    rw [number_succ]
    show bigEndian (out * 256 + (UInt8.ofNat (val / 256 ^ size)).toNat) (number size val) = _
    have hbyte : (UInt8.ofNat (val / 256 ^ size)).toNat = val / 256 ^ size % 256 :=
      UInt8.toNat_ofNat'
    rw [ih, hbyte, pow_succ, Nat.mod_mul]
    ring

/-- **Reading back a field** at the place where it was written. -/
theorem field_numbers {fields : List (ℕ × ℕ)} (k : ℕ) {size val : ℕ}
    (h : fields[k]? = some (size, val)) (rest : Bytes) (out : ℕ) :
    field (numbers fields ++ rest) ((fields.take k).map (·.1)).sum size out = val % 256 ^ size := by
  induction k generalizing fields with
  | zero =>
    cases fields with
    | nil => cases h
    | cons f fields =>
      cases h
      simp only [List.take_zero, List.map_nil, List.sum_nil, numbers_cons, List.append_assoc]
      rw [field, if_pos (by simp), List.drop_zero, List.take_append_of_le_length (by simp),
        List.take_of_length_le (by simp), bigEndian_number, Nat.zero_mul, Nat.zero_add]
  | succ k ih =>
    cases fields with
    | nil => cases h
    | cons f fields =>
      rw [← ih h]
      simp only [List.take_succ_cons, List.map_cons, List.sum_cons, numbers_cons, List.append_assoc]
      -- the fields in front are passed over
      unfold field
      simp only [List.length_append, length_number, List.drop_append, Nat.add_assoc,
        Nat.add_le_add_iff_left, Nat.add_sub_cancel_left]
      rw [List.drop_eq_nil_of_le (by simp), List.nil_append]

/-- A byte is read back at its place. -/
theorem field8_numbers {fields : List (ℕ × ℕ)} (k : ℕ) {x : UInt8}
    (h : fields[k]? = some (1, x.toNat)) (rest : Bytes) (out : UInt8) :
    field8 (numbers fields ++ rest) ((fields.take k).map (·.1)).sum out = x := by
  have hlt : x.toNat < 256 ^ 1 := x.toNat_lt
  rw [field8, field_numbers k h, Nat.mod_eq_of_lt hlt, UInt8.ofNat_toNat]

/-- Two bytes are read back at their place. -/
theorem field16_numbers {fields : List (ℕ × ℕ)} (k : ℕ) {x : UInt16}
    (h : fields[k]? = some (2, x.toNat)) (rest : Bytes) (out : UInt16) :
    field16 (numbers fields ++ rest) ((fields.take k).map (·.1)).sum out = x := by
  have hlt : x.toNat < 256 ^ 2 := x.toNat_lt
  rw [field16, field_numbers k h, Nat.mod_eq_of_lt hlt, UInt16.ofNat_toNat]

/-- Four bytes are read back at their place. -/
theorem field32_numbers {fields : List (ℕ × ℕ)} (k : ℕ) {x : UInt32}
    (h : fields[k]? = some (4, x.toNat)) (rest : Bytes) (out : UInt32) :
    field32 (numbers fields ++ rest) ((fields.take k).map (·.1)).sum out = x := by
  have hlt : x.toNat < 256 ^ 4 := x.toNat_lt
  rw [field32, field_numbers k h, Nat.mod_eq_of_lt hlt, UInt32.ofNat_toNat]

/-- A field of two bytes is a word of the sum. -/
theorem wordSum_number_two (val : ℕ) :
    OnesComplement.wordSum false (number 2 val) = val % 65536 := by
  have hbyte : ∀ x, (UInt8.ofNat x).toNat = x % 256 := fun x => UInt8.toNat_ofNat'
  rw [number_succ, number_succ]
  simp only [OnesComplement.wordSum_cons, hbyte, number, List.range_zero, List.map_nil,
    OnesComplement.wordSum_nil, Bool.not_false, if_true, Bool.false_eq_true, if_false]
  omega

/-- A word behind whole words is added to the sum. -/
theorem wordSum_append_number {before : Bytes} (h : before.length.bodd = false) (val : ℕ)
    (behind : Bytes) :
    OnesComplement.wordSum false (before ++ (number 2 val ++ behind))
      = OnesComplement.wordSum false before + val % 65536
        + OnesComplement.wordSum false behind := by
  rw [OnesComplement.wordSum_append, OnesComplement.wordSum_append, h, length_number]
  show _ + (OnesComplement.wordSum false (number 2 val) + OnesComplement.wordSum false behind) = _
  rw [wordSum_number_two, Nat.add_assoc]

theorem Serializer.integer_eq (size val : ℕ) (s : Serializer) :
    s.integer size val = { s with bytes := s.bytes ++ number size val } := rfl

/-! ### The header of a datagram -/

namespace IPv4Header

/-- What `serialize` writes. -/
def fields (h : IPv4Header) : List (ℕ × ℕ) :=
  [(1, ((h.ver.toUInt32 <<< 4) ||| (h.hlen.toUInt32 &&& 0xf)).toUInt8.toNat),
    (1, h.tos.toNat),
    (2, h.len.toNat),
    (2, h.id.toNat),
    (2, ((if h.df then 0x4000 else 0) ||| (if h.mf then 0x2000 else 0)
      ||| (h.offset &&& 0x1fff) : UInt16).toNat),
    (1, h.ttl.toNat),
    (1, h.proto.toNat),
    (2, h.cksum.toNat),
    (4, h.src.toNat),
    (4, h.dst.toNat)]

/-- The bytes of the header on the wire. -/
def bytes (h : IPv4Header) : Bytes := numbers h.fields

/-- A header has twenty bytes. -/
theorem length_bytes (h : IPv4Header) : h.bytes.length = LENGTH := length_numbers h.fields

/-- The fields are written as `bytes`. -/
theorem serializeFields_eq (h : IPv4Header) (s : Serializer) :
    h.serializeFields s = { s with bytes := s.bytes ++ h.bytes } := by
  unfold serializeFields bytes fields
  simp only [Serializer.integer8, Serializer.integer16, Serializer.integer32,
    Serializer.integer_eq, numbers_cons, numbers_nil, List.append_nil, List.append_assoc]

/-- The header is one of a version 4 datagram, and its short fields fit in their bits. -/
structure Fits (h : IPv4Header) : Prop where
  ver_eq : h.ver = 4
  hlen_lt : h.hlen.toNat < 16
  offset_lt : h.offset.toNat < 2 ^ 13

/-- The two halves of the first byte. -/
theorem firstByte_split {ver hlen : UInt8} (hver : ver = 4) (hhlen : hlen.toNat < 16) :
    let firstByte := ((ver.toUInt32 <<< 4) ||| (hlen.toUInt32 &&& 0xf)).toUInt8
    firstByte >>> 4 = ver ∧ firstByte &&& 0x0f = hlen := by
  have hall : ∀ n < 16,
      let firstByte := (((4 : UInt8).toUInt32 <<< 4) ||| ((UInt8.ofNat n).toUInt32 &&& 0xf)).toUInt8
      firstByte >>> 4 = 4 ∧ firstByte &&& 0x0f = UInt8.ofNat n := by
    decide
  rw [hver]
  have hsplit := hall hlen.toNat hhlen
  rwa [UInt8.ofNat_toNat] at hsplit

/-- Masks go over the bits one by one. -/
theorem or_and (a b c : UInt16) : (a ||| b) &&& c = (a &&& c) ||| (b &&& c) :=
  UInt16.toBitVec_inj.mp BitVec.and_or_distrib_right

/-- The bits that stand for the flags and the offset do not get in each other's way. -/
theorem foVal_split (df mf : Bool) {offset : UInt16} (h : offset.toNat < 2 ^ 13) :
    let foVal : UInt16 := (if df then 0x4000 else 0) ||| (if mf then 0x2000 else 0)
      ||| (offset &&& 0x1fff)
    decide (foVal &&& 0x4000 ≠ 0) = df ∧ decide (foVal &&& 0x2000 ≠ 0) = mf ∧
      foVal &&& 0x1fff = offset := by
  have hlow : offset &&& 0x1fff = offset := by
    rw [← UInt16.toNat_inj, UInt16.toNat_and]
    exact Nat.and_two_pow_sub_one_of_lt_two_pow h
  have hmask : ∀ mask : UInt16, 0x1fff &&& mask = 0 → offset &&& mask = 0 := by
    intro mask hmask
    rw [← hlow, UInt16.and_assoc, hmask, UInt16.and_zero]
  simp only [or_and, hlow, hmask 0x4000 (by decide), hmask 0x2000 (by decide), UInt16.or_zero]
  refine ⟨?_, ?_, ?_⟩
  · cases df <;> cases mf <;> decide
  · cases df <;> cases mf <;> decide
  · have hdf : (0x4000 : UInt16) &&& 0x1fff = 0 := by decide
    have hmf : (0x2000 : UInt16) &&& 0x1fff = 0 := by decide
    cases df <;> cases mf <;> simp [hdf, hmf]

/-- **A header on the wire** is read back. -/
theorem ofBytes_bytes {h : IPv4Header} (hfits : h.Fits) (h₀ : IPv4Header) (rest : Bytes) :
    h₀.ofBytes (h.bytes ++ rest) = h := by
  obtain ⟨hver, hhlen⟩ := firstByte_split hfits.ver_eq hfits.hlen_lt
  obtain ⟨hdf, hmf, hoffset⟩ := foVal_split h.df h.mf hfits.offset_lt
  have hfirst : field8 (h.bytes ++ rest) 0 0 = _ := field8_numbers 0 rfl rest 0
  have htos : field8 (h.bytes ++ rest) 1 h₀.tos = h.tos := field8_numbers 1 rfl rest _
  have hlen : field16 (h.bytes ++ rest) 2 h₀.len = h.len := field16_numbers 2 rfl rest _
  have hid : field16 (h.bytes ++ rest) 4 h₀.id = h.id := field16_numbers 3 rfl rest _
  have hfo : field16 (h.bytes ++ rest) 6 0 = _ := field16_numbers 4 rfl rest 0
  have httl : field8 (h.bytes ++ rest) 8 h₀.ttl = h.ttl := field8_numbers 5 rfl rest _
  have hproto : field8 (h.bytes ++ rest) 9 h₀.proto = h.proto := field8_numbers 6 rfl rest _
  have hcksum : field16 (h.bytes ++ rest) 10 h₀.cksum = h.cksum := field16_numbers 7 rfl rest _
  have hsrc : field32 (h.bytes ++ rest) 12 h₀.src = h.src := field32_numbers 8 rfl rest _
  have hdst : field32 (h.bytes ++ rest) 16 h₀.dst = h.dst := field32_numbers 9 rfl rest _
  unfold ofBytes
  simp only [hfirst, htos, hlen, hid, hfo, httl, hproto, hcksum, hsrc, hdst, hver, hhlen, hdf, hmf,
    hoffset]

/-- The sum of the words of a header. -/
def wordSum (h : IPv4Header) : ℕ := OnesComplement.wordSum false h.bytes

/-- The sum of ten words is bounded. -/
theorem wordSum_le (h : IPv4Header) : h.wordSum ≤ 65280 * LENGTH := by
  rw [← h.length_bytes]
  exact OnesComplement.wordSum_le false h.bytes

/-- The bytes of a header of its own. -/
theorem finish_serializeFields (h : IPv4Header) :
    (h.serializeFields {}).finish = [{ get := h.bytes }] := by
  have hne : h.bytes ≠ [] := by
    rw [← List.length_pos_iff, length_bytes]
    exact Nat.zero_lt_succ _
  rw [serializeFields_eq, List.nil_append, Serializer.finish, Serializer.flush, if_pos hne]
  rfl

/-- **The checksum of a header** is the complement of the sum of its words, its own left out. -/
theorem toNat_checksum (h : IPv4Header) :
    h.checksum.toNat = 65535 - OnesComplement.fold { h with cksum := 0 }.wordSum := by
  have hsum : ({} : InternetChecksum).sum.toNat = 0 := rfl
  have hroom : ({} : InternetChecksum).Room { h with cksum := 0 }.bytes := by
    unfold InternetChecksum.Room
    rw [hsum, Nat.zero_add]
    exact lt_of_le_of_lt (wordSum_le _) (by norm_num [LENGTH])
  rw [checksum, finish_serializeFields, InternetChecksum.addAll_eq, concat_cons, concat_nil,
    List.append_nil, InternetChecksum.toNat_value_add hroom, hsum, Nat.zero_add]
  rfl

/-- What a header adds to the checksum of a segment is not much. -/
theorem pseudoChecksum_lt (h : IPv4Header) : h.pseudoChecksum.toNat < 6 * 2 ^ 16 := by
  have hadd : ∀ x y : UInt32, (x + y).toNat ≤ x.toNat + y.toNat := by
    intro x y
    rw [UInt32.toNat_add]
    exact Nat.mod_le _ _
  have hhigh : ∀ x : UInt32, (x >>> 16).toNat < 2 ^ 16 := by
    intro x
    have := x.toNat_lt
    rw [UInt32.toNat_shiftRight, Nat.shiftRight_eq_div_pow]
    show _ / 2 ^ 16 < _
    omega
  have hlow : ∀ x : UInt16, x.toUInt32.toNat < 2 ^ 16 := fun x => by
    rw [UInt16.toNat_toUInt32]
    exact x.toNat_lt
  have hproto : h.proto.toUInt32.toNat < 2 ^ 16 := by
    rw [UInt8.toNat_toUInt32]
    exact h.proto.toNat_lt.trans (by norm_num)
  unfold pseudoChecksum
  -- five sums of six numbers below `2 ^ 16`
  have h₁ := hadd (h.src >>> 16) h.src.toUInt16.toUInt32
  have h₂ := hadd (h.dst >>> 16) h.dst.toUInt16.toUInt32
  have h₃ := hadd ((h.src >>> 16) + h.src.toUInt16.toUInt32)
    ((h.dst >>> 16) + h.dst.toUInt16.toUInt32)
  have h₄ := hadd ((h.src >>> 16) + h.src.toUInt16.toUInt32 +
    ((h.dst >>> 16) + h.dst.toUInt16.toUInt32)) h.proto.toUInt32
  have h₅ := hadd ((h.src >>> 16) + h.src.toUInt16.toUInt32 +
    ((h.dst >>> 16) + h.dst.toUInt16.toUInt32) + h.proto.toUInt32) h.payloadLength.toUInt32
  have := hhigh h.src
  have := hhigh h.dst
  have := hlow h.src.toUInt16
  have := hlow h.dst.toUInt16
  have := hlow h.payloadLength
  dsimp only
  omega

/-- The time to live is in the high byte of its word. -/
theorem wordSum_eq (h : IPv4Header) :
    h.wordSum = { h with ttl := 0, cksum := 0 }.wordSum + 256 * h.ttl.toNat + h.cksum.toNat := by
  -- the fields before, between and after the two
  have hsplit : ∀ (ttl : UInt8) (cksum : UInt16), { h with ttl, cksum }.bytes
      = numbers (h.fields.take 5) ++ (number 1 ttl.toNat ++ (number 1 h.proto.toNat ++
        (number 2 cksum.toNat ++ numbers (h.fields.drop 8)))) := by
    intro ttl cksum
    simp [bytes, fields]
  have hbefore : (numbers (h.fields.take 5)).length = 8 := length_numbers _
  have hone : ∀ (odd : Bool) (x : UInt8),
      OnesComplement.wordSum odd (number 1 x.toNat) = if odd then x.toNat else 256 * x.toNat := by
    intro odd x
    rw [number_succ]
    simp [number, OnesComplement.wordSum_cons]
  have hsum : ∀ (ttl : UInt8) (cksum : UInt16), { h with ttl, cksum }.wordSum
      = OnesComplement.wordSum false (numbers (h.fields.take 5)) + (256 * ttl.toNat +
        (h.proto.toNat + (cksum.toNat +
          OnesComplement.wordSum false (numbers (h.fields.drop 8))))) := by
    intro ttl cksum
    have hcksum : cksum.toNat % 65536 = cksum.toNat := Nat.mod_eq_of_lt cksum.toNat_lt
    unfold wordSum
    rw [hsplit, OnesComplement.wordSum_append, OnesComplement.wordSum_append,
      OnesComplement.wordSum_append, OnesComplement.wordSum_append, hbefore]
    simp only [length_number]
    show _ + (OnesComplement.wordSum false (number 1 ttl.toNat) +
      (OnesComplement.wordSum true (number 1 h.proto.toNat) +
        (OnesComplement.wordSum false (number 2 cksum.toNat) + OnesComplement.wordSum false _))) = _
    rw [hone, hone, wordSum_number_two, hcksum]
    rfl
  have hself := hsum h.ttl h.cksum
  have hzero := hsum 0 0
  rw [hself, hzero]
  simp only [UInt8.toNat_zero, UInt16.toNat_zero]
  omega

end IPv4Header

/-! ### Datagrams -/

namespace IPv4Datagram

/-- A datagram of version 4 is written, in buffers of which none is empty. -/
theorem serialize_wire {d : IPv4Datagram} (hver : d.header.ver = 4) :
    ∃ out, Minnow.serialize d.serialize = .ok out ∧
      concat out = d.header.bytes ++ concat d.payload ∧ ∀ r ∈ out, r.get ≠ [] := by
  have hwrite : d.serialize {} = .ok ((d.header.serializeFields {}).buffers d.payload) := by
    unfold serialize IPv4Header.serialize
    rw [if_neg (not_not.mpr hver)]
    rfl
  have hnone : (d.header.serializeFields {}).NoneEmpty := by
    rw [IPv4Header.serializeFields_eq]
    exact fun r hr => by cases hr
  refine ⟨_, serialize_of_ok hwrite, ?_, (hnone.buffers d.payload).flush⟩
  rw [Serializer.concat_finish, Serializer.content_buffers, IPv4Header.serializeFields_eq]
  rfl

/-- **A datagram on the wire** is read back when all that comes behind its header belongs to it.
    It is accepted if its checksum is right; its fields are there in any case. -/
theorem parse_wire {h : IPv4Header} (hfits : h.Fits) (hhlen : h.hlen = 5) {payload : List Ref}
    (howned : ∀ r ∈ payload, r.owned = true) (hgap : Gapless payload) {rest : Bytes}
    (hbytes : concat payload = h.bytes ++ rest) (hlen : rest.length ≤ h.payloadLength.toNat) :
    ∃ d, Minnow.parse (parse {}) payload = .ok (d, decide (h.checksum = h.cksum)) ∧
      d.header = { h with cksum := h.checksum } ∧ concat d.payload = rest ∧
      (∀ r ∈ d.payload, r.owned = true) ∧ Gapless d.payload := by
  have hlength := h.length_bytes
  unfold IPv4Header.LENGTH at hlength
  have hof : IPv4Header.ofBytes {} (concat payload) = h := by
    rw [hbytes, IPv4Header.ofBytes_bytes hfits]
  have hcomplete : IPv4Header.Complete (concat payload) := by
    unfold IPv4Header.Complete
    rw [hof, hfits.ver_eq, hhlen, hbytes, List.length_append, hlength]
    exact ⟨Nat.le_add_right _ _, rfl, by decide⟩
  have hend : IPv4Header.headerEnd (concat payload) = 20 := by
    unfold IPv4Header.headerEnd
    rw [if_pos hcomplete, hof, hhlen, hbytes, List.length_append, hlength]
    exact Nat.min_eq_left (Nat.le_add_right _ _)
  have hbehind : behindHeader (concat payload) = rest := by
    unfold behindHeader
    rw [hend, hbytes, ← hlength, List.drop_left]
  have hall : (behindHeader (concat payload)).length ≤ lengthIn (concat payload) := by
    unfold lengthIn
    rw [hbehind, hof]
    exact hlen
  -- nothing is cut off
  have hsome : ¬ KeepsNone payload := by
    rintro ⟨-, hshort, -⟩
    exact absurd hall (not_le.mpr hshort)
  rcases Parser.new_cases payload with ⟨⟨p, hnew, hread⟩, -⟩ | ⟨-, r, hr, hborrowed⟩
  swap
  · rw [howned r hr] at hborrowed
    cases hborrowed
  rcases parse_spec hread with ⟨e, -, ⟨-, hempty⟩, -⟩ | hspec
  · exact absurd hgap hempty
  rw [if_neg hsome] at hspec
  obtain ⟨d, p', hrun, hheader, hpayload, howned', hgap', herr⟩ := hspec
  refine ⟨d, ?_, ?_, ?_, howned', hgap' hall hgap⟩
  · -- a header that is complete is rejected for its checksum only
    have hflag : (!p'.error) = decide (h.checksum = h.cksum) := by
      rw [herr, ← decide_not, decide_eq_decide]
      unfold Rejected
      rw [hof, not_or, not_not, not_not]
      exact and_iff_right hcomplete
    rw [← hflag]
    unfold Minnow.parse
    rw [hnew]
    show ((parse {}).run p >>= fun x => _) = _
    rw [hrun]
    rfl
  · rw [hheader, IPv4Header.parsed, if_pos hcomplete, hof]
  · rw [hpayload, payloadFrom, if_pos hall, hbehind]

end IPv4Datagram

end Minnow
