import Minnow.IPv4

namespace Minnow

/-!
# How a datagram is split into buffers

What is parsed of a datagram depends on its bytes and, where bytes behind it have to be cut off, on
the buffers: only whole ones are kept, counted from the start of the one in which the header ends.

* `IPv4Datagram.outcome` — the outcome, given the buffers;
* `IPv4Datagram.parse_split_iff` — two ways to split the same bytes come out the same if and only
  if nothing has to be cut off, or everything, or both keep some buffers with equally many bytes.
-/

namespace IPv4Datagram

/-- What is to be seen of a datagram and the success of parsing it. -/
def view (r : IPv4Datagram × Bool) : IPv4Header × Bytes × Bool :=
  (r.1.header, concat r.1.payload, r.2)

/-- What comes of some buffers. -/
def outcome (payload : List Ref) : Except StdException (IPv4Header × Bytes × Bool) :=
  let b := concat payload
  if KeepsNone payload then .error (.undefinedBehaviour "front() of an empty deque")
  else .ok (IPv4Header.parsed {} b, payloadFrom b (keptOf payload), !decide (Rejected b))

/-- What comes of buffers that are owned and of which none is read where it is empty. -/
theorem parse_outcome_of_reads {payload : List Ref} (howned : ∀ r ∈ payload, r.owned = true)
    (hreads : ∀ e, ¬ ReadsEmptyBefore payload IPv4Header.LENGTH e) :
    (Minnow.parse (parse {}) payload).map view = outcome payload := by
  rcases Parser.new_cases payload with ⟨⟨p, hnew, hread⟩, -⟩ | ⟨-, r, hr, hborrowed⟩
  swap
  · rw [howned r hr] at hborrowed
    cases hborrowed
  unfold Minnow.parse outcome
  rw [hnew]
  show (((parse {}).run p >>= fun x => _) : Except _ _).map view = _
  rcases parse_spec hread with ⟨e, -, hempty⟩ | h
  · exact absurd hempty (hreads e)
  · split at h
    · rename_i hnone
      rw [h, if_pos hnone]
      rfl
    · rename_i hsome
      obtain ⟨d, p', hrun, hheader, hbytes, -, -, herr⟩ := h
      rw [hrun, if_neg hsome]
      show Except.ok (d.header, concat d.payload, !p'.error) = _
      rw [hheader, hbytes, herr]

/-- What comes of buffers that are owned and not empty. -/
theorem parse_outcome {payload : List Ref} (howned : ∀ r ∈ payload, r.owned = true ∧ r.get ≠ []) :
    (Minnow.parse (parse {}) payload).map view = outcome payload :=
  parse_outcome_of_reads (fun r hr => (howned r hr).1) fun _ hempty =>
    hempty.1.2 (gapless_of_nonempty fun r hr => (howned r hr).2)

/-- The same outcome, which undefined behaviour is none. -/
def SameOutcome {α : Type} (x y : Except StdException α) : Prop :=
  x = y ∧ ∀ e, x = .error e → ¬ e.IsUndefined

/-- Two ways to split the same bytes do not make a difference to what is cut off. -/
def SameCut (payload payload' : List Ref) : Prop :=
  (behindHeader (concat payload)).length ≤ lengthIn (concat payload) ∨
    lengthIn (concat payload) = 0 ∨
    ¬ KeepsNone payload ∧ ¬ KeepsNone payload' ∧ keptOf payload = keptOf payload'

instance (payload payload' : List Ref) : Decidable (SameCut payload payload') := by
  unfold SameCut
  infer_instance

/-- An outcome is defined where a buffer is kept. -/
theorem sameOutcome_iff {payload payload' : List Ref} :
    SameOutcome (outcome payload) (outcome payload') ↔
      ¬ KeepsNone payload ∧ ¬ KeepsNone payload' ∧ outcome payload = outcome payload' := by
  constructor
  · rintro ⟨heq, hdefined⟩
    have hsome : ¬ KeepsNone payload := by
      intro hnone
      exact hdefined _ (if_pos hnone) ⟨_, rfl⟩
    refine ⟨hsome, fun hnone => ?_, heq⟩
    rw [outcome, outcome, if_neg hsome, if_pos hnone] at heq
    cases heq
  · rintro ⟨hsome, -, heq⟩
    refine ⟨heq, fun e he => ?_⟩
    rw [outcome, if_neg hsome] at he
    cases he

/-- Two outcomes for the same bytes. -/
theorem sameOutcome_iff_sameCut {payload payload' : List Ref}
    (hbytes : concat payload = concat payload') :
    SameOutcome (outcome payload) (outcome payload') ↔ SameCut payload payload' := by
  rw [sameOutcome_iff, SameCut]
  by_cases hall : (behindHeader (concat payload)).length ≤ lengthIn (concat payload)
  · -- nothing is cut off
    have hsome : ¬ KeepsNone payload := fun hnone => not_le.mpr hnone.2.1 hall
    have hsome' : ¬ KeepsNone payload' := fun hnone => by
      rw [KeepsNone, ← hbytes] at hnone
      exact not_le.mpr hnone.2.1 hall
    refine iff_of_true ⟨hsome, hsome', ?_⟩ (.inl hall)
    rw [outcome, outcome, if_neg hsome, if_neg hsome', ← hbytes, payloadFrom, payloadFrom,
      if_pos hall, if_pos hall]
  rw [or_iff_right hall]
  by_cases hzero : lengthIn (concat payload) = 0
  · -- everything is cut off
    have hsome : ¬ KeepsNone payload := fun hnone => hnone.1.ne' hzero
    have hsome' : ¬ KeepsNone payload' := fun hnone => by
      rw [KeepsNone, ← hbytes] at hnone
      exact hnone.1.ne' hzero
    have hkept : keptOf payload = keptOf payload' := by
      rw [keptOf, keptOf, ← hbytes, hzero, wholeLength_zero, wholeLength_zero, Nat.zero_sub,
        Nat.zero_sub]
    refine iff_of_true ⟨hsome, hsome', ?_⟩ (.inl hzero)
    rw [outcome, outcome, if_neg hsome, if_neg hsome', ← hbytes, hkept]
  rw [or_iff_right hzero]
  refine and_congr_right fun hsome => and_congr_right fun hsome' => ?_
  rw [outcome, outcome, if_neg hsome, if_neg hsome', ← hbytes, payloadFrom, payloadFrom,
    if_neg hall, if_neg hall]
  constructor
  · -- both keep a part of the same bytes
    intro h
    have htake : (behindHeader (concat payload)).take (keptOf payload)
        = (behindHeader (concat payload)).take (keptOf payload') :=
      congrArg (·.2.1) (Except.ok.inj h)
    have hkept : keptOf payload ≤ lengthIn (concat payload) :=
      (Nat.sub_le _ _).trans (wholeLength_le _ _)
    have hkept' : keptOf payload' ≤ lengthIn (concat payload) := by
      rw [hbytes]
      exact (Nat.sub_le _ _).trans (wholeLength_le _ _)
    have hlength := congrArg List.length htake
    rw [List.length_take, List.length_take] at hlength
    omega
  · intro h
    rw [h]

/-- **Two ways to split the same bytes** into buffers come out the same if and only if the bytes
    behind the header all belong to the datagram, or none of them does, or in both ways the buffer
    in which the header ends is kept, and as many bytes with it. -/
theorem parse_split_iff {payload payload' : List Ref}
    (howned : ∀ r ∈ payload, r.owned = true ∧ r.get ≠ [])
    (howned' : ∀ r ∈ payload', r.owned = true ∧ r.get ≠ [])
    (hbytes : concat payload = concat payload') :
    SameOutcome ((Minnow.parse (parse {}) payload).map view)
      ((Minnow.parse (parse {}) payload').map view) ↔ SameCut payload payload' := by
  rw [parse_outcome howned, parse_outcome howned', sameOutcome_iff_sameCut hbytes]

/-- A header of 20 bytes for a payload of 4 bytes, and 6 bytes behind these. -/
def padded : Bytes :=
  [0x45, 0, 0, 24, 0, 0, 0x40, 0, 64, 6, 0x26, 0xde, 10, 0, 0, 1, 10, 0, 0, 2,
    1, 2, 3, 4, 0, 0, 0, 0, 0, 0]

/-- The header in a buffer of its own, and another buffer that ends behind `n` bytes more. -/
def paddedAt (n : ℕ) : List Ref :=
  [{ get := padded.take 20 }, { get := (padded.drop 20).take n }, { get := padded.drop (20 + n) }]

/-- Where the payload has a buffer of its own, what is behind it may be split. -/
theorem parse_split_padded :
    SameOutcome ((Minnow.parse (parse {}) (paddedAt 4)).map view)
      ((Minnow.parse (parse {}) ([{ get := padded.take 20 }, { get := (padded.drop 20).take 4 },
          { get := (padded.drop 24).take 3 }, { get := padded.drop 27 }])).map view) :=
  (parse_split_iff (by decide) (by decide) (by decide)).mpr (by decide +kernel)

/-- **The split makes a difference**: the byte is lost that shares a buffer with what is behind the
    datagram. -/
theorem parse_split_differs :
    ¬ ∀ payload payload' : List Ref, (∀ r ∈ payload, r.owned = true ∧ r.get ≠ []) →
      (∀ r ∈ payload', r.owned = true ∧ r.get ≠ []) → concat payload = concat payload' →
      SameOutcome ((Minnow.parse (parse {}) payload).map view)
        ((Minnow.parse (parse {}) payload').map view) := by
  intro h
  have heq := (h (paddedAt 4) (paddedAt 3) (by decide) (by decide) (by decide)).1
  revert heq
  decide +kernel

/-- In one buffer with its header, or in one with what is behind it, the payload is not kept. -/
example : KeepsNone [{ get := padded }] ∧
    KeepsNone [{ get := padded.take 20 }, { get := padded.drop 20 }] := by
  decide +kernel

end IPv4Datagram

end Minnow
