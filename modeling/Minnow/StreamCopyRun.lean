import Minnow.StreamCopyWays

namespace Minnow

/-!
# Runs of the two-way copy

What is kept by every turn of the loop in `bidirectional_stream_copy`.

* `StreamCopy.Inv` — what is known while the loop is asking and serving its rules, and `sound`, that
  the rules keep it;
* `StreamCopy.copy_safe` — nothing but what was taken from a source is given to its sink, in order;
* `StreamCopy.copy_complete` — when the copy returns, all of it was;
* `StreamCopy.copy_never_throws` — a reliable kernel does not lead to an exception.
-/

namespace StreamCopy

open ExceptState EventLoop

variable {kernel : Kernel CopyFd} {rules rules' : List (FDRule CopyFd CopyVars)}
  {w w' : World CopyFd CopyVars} {way : Way} {l : List (FDRule CopyFd CopyVars × Option Bool)}

/-! ### Asking and serving the rules -/

/-- The rules that are left are in their order. -/
structure Shape (kernel : Kernel CopyFd) (rules : List (FDRule CopyFd CopyVars)) : Prop where
  known : ∀ rule ∈ rules, ∃ way, rule = reader kernel way ∨ rule = writer kernel way
  ordered : rules.Pairwise fun r r' => r.id < r'.id

/-- What the answers of the rules mean. -/
structure Answered (kernel : Kernel CopyFd) (l : List (FDRule CopyFd CopyVars × Option Bool))
    (w : World CopyFd CopyVars) : Prop where
  room : ∀ way, (reader kernel way, some true) ∈ l →
    0 < (w.vars.stream way).availableCapacity.toNat ∧ (w.vars.stream way).eof ≠ true
  ready : ∀ way, (writer kernel way, some true) ∈ l → (w.vars.stream way).contents ≠ [] ∨
    (w.vars.stream way).eof = true
  idle : ∀ p ∈ l, p.2 = some false → p.1.interest w = false

/-- What holds while the loop is asking and serving its rules, with the answers so far. -/
structure Inv (kernel : Kernel CopyFd) (l : List (FDRule CopyFd CopyVars × Option Bool))
    (w : World CopyFd CopyVars) : Prop where
  shape : Shape kernel (l.map (·.1))
  kept : Kept kernel (l.map (·.1)) w
  answered : Answered kernel l w

/-- Rules that have not been asked have said nothing. -/
theorem answered_unasked (rules : List (FDRule CopyFd CopyVars)) (w : World CopyFd CopyVars) :
    Answered kernel (unasked rules) w := by
  have hnone : ∀ p ∈ unasked rules, p.2 = none := by
    intro p hp
    obtain ⟨rule, -, rfl⟩ := List.mem_map.mp hp
    rfl
  refine ⟨fun way hp => ?_, fun way hp => ?_, fun p hp hfalse => ?_⟩
  · cases hnone _ hp
  · cases hnone _ hp
  · rw [hnone p hp] at hfalse
    cases hfalse

/-- Answers may be forgotten. -/
theorem Answered.mono {l' : List (FDRule CopyFd CopyVars × Option Bool)}
    (h : Answered kernel l w) (hl : ∀ p ∈ l', p.2 = none ∨ p ∈ l) : Answered kernel l' w where
  room := fun way hp => h.room way ((hl _ hp).resolve_left nofun)
  ready := fun way hp => h.ready way ((hl _ hp).resolve_left nofun)
  idle := fun p hp hfalse => h.idle p ((hl p hp).resolve_left (by rw [hfalse]; nofun)) hfalse

/-- The identities tell the rules apart. -/
def Way.first : Way → ℕ
  | .outbound => 0
  | .inbound => 2

theorem id_reader (way : Way) : (reader kernel way).id = Way.first way := by
  cases way <;> rfl

theorem id_writer (way : Way) : (writer kernel way).id = Way.first way + 1 := by
  cases way <;> rfl

theorem interest_reader (way : Way) : (reader kernel way).interest = readInterest way := by
  cases way <;> rfl

theorem interest_writer (way : Way) : (writer kernel way).interest = writeInterest way := by
  cases way <;> rfl

/-- The ways have readers of their own. -/
theorem reader_injective {way' : Way} (h : reader kernel way = reader kernel way') :
    way = way' := by
  have hid := congrArg (·.id) h
  cases way <;> cases way' <;> first | rfl | cases hid

/-- The ways have writers of their own. -/
theorem writer_injective {way' : Way} (h : writer kernel way = writer kernel way') :
    way = way' := by
  have hid := congrArg (·.id) h
  cases way <;> cases way' <;> first | rfl | cases hid

theorem reader_ne_writer (way way' : Way) : reader kernel way ≠ writer kernel way' := by
  intro h
  have hid := congrArg (·.id) h
  cases way <;> cases way' <;> cases hid

theorem fd_reader (way : Way) : (reader kernel way).fd = way.source := by
  cases way <;> rfl

theorem fd_writer (way : Way) : (writer kernel way).fd = way.sink := by
  cases way <;> rfl

theorem callback_reader (way : Way) : (reader kernel way).callback = readCallback kernel way := by
  cases way <;> rfl

theorem callback_writer (way : Way) :
    (writer kernel way).callback = writeCallback kernel way (finish kernel way) := by
  cases way <;> rfl

theorem serviceCount_reader (way : Way) (w : World CopyFd CopyVars) :
    (reader kernel way).serviceCount w = (w.fds way.source).readCount := by
  cases way <;> rfl

theorem serviceCount_writer (way : Way) (w : World CopyFd CopyVars) :
    (writer kernel way).serviceCount w = (w.fds way.sink).writeCount := by
  cases way <;> rfl

theorem cancel_reader (way : Way) :
    (reader kernel way).cancel = modify (onStream way ByteStream.close) := by
  cases way <;> rfl

theorem cancel_writer (way : Way) :
    (writer kernel way).cancel = modify (onStream way ByteStream.close) := by
  cases way <;> rfl

/-- Closing a stream that is closed. -/
theorem close_eq_self (h : (w.vars.stream way).eof = true) :
    onStream way ByteStream.close w = w := by
  refine onStream_eq_self ?_
  rw [ByteStream.close, ← h]

/-- Closing a stream does not matter to the answers of the other way. -/
theorem Answered.close (h : Answered kernel l w) (hshape : Shape kernel (l.map (·.1)))
    (hreader : ∀ answer, (reader kernel way, answer) ∈ l → answer = none)
    (hwriter : (writer kernel way, some false) ∉ l) :
    Answered kernel l (onStream way ByteStream.close w) := by
  have hother : ∀ way', way' ≠ way →
      (onStream way ByteStream.close w).vars.stream way' = w.vars.stream way' :=
    fun way' hne => Function.update_of_ne hne ..
  have herror : ∀ way', ((onStream way ByteStream.close w).vars.stream way').hasError
      = (w.vars.stream way').hasError := by
    intro way'
    by_cases heq : way' = way
    · rw [heq, stream_onStream]
      rfl
    · rw [hother way' heq]
  refine ⟨fun way' hp => ?_, fun way' hp => ?_, fun p hp hfalse => ?_⟩
  · by_cases heq : way' = way
    · cases hreader _ (heq ▸ hp)
    · rw [hother way' heq]
      exact h.room way' hp
  · by_cases heq : way' = way
    · rw [heq, stream_onStream]
      exact .inr rfl
    · rw [hother way' heq]
      exact h.ready way' hp
  · have hidle := h.idle p hp hfalse
    obtain ⟨rule, answer⟩ := p
    obtain ⟨way', hrule⟩ := hshape.known rule (List.mem_map_of_mem hp)
    have hne : way' ≠ way := by
      rintro rfl
      rcases hrule with rfl | rfl
      · rw [hreader _ hp] at hfalse
        cases hfalse
      · exact hwriter (hfalse ▸ hp)
    rcases hrule with rfl | rfl
    · rw [interest_reader] at hidle ⊢
      rw [readInterest, herror, herror, hother way' hne]
      exact hidle
    · rw [interest_writer] at hidle ⊢
      rw [writeInterest, hother way' hne]
      exact hidle

/-- A reader that is interested has room, and its stream is not closed. -/
theorem readInterest_eq_true (h : readInterest way w = true) :
    0 < (w.vars.stream way).availableCapacity.toNat ∧ (w.vars.stream way).eof ≠ true := by
  simp only [readInterest, Bool.and_eq_true, decide_eq_true_eq, Bool.not_eq_true',
    gt_iff_lt] at h
  refine ⟨UInt64.lt_iff_toNat_lt.mp h.1.2, ?_⟩
  rw [show (w.vars.stream way).eof = false from h.2]
  exact Bool.false_ne_true

/-- A writer that is interested has bytes, or an end to pass on. -/
theorem writeInterest_eq_true (hwf : (w.vars.stream way).WF) (h : writeInterest way w = true) :
    (w.vars.stream way).contents ≠ [] ∨ (w.vars.stream way).eof = true := by
  simp only [writeInterest, Bool.or_eq_true, Bool.and_eq_true, decide_eq_true_eq] at h
  rcases h with hne | ⟨hfinished, -⟩
  · exact .inl fun hnil => hne ((ByteStream.bytesBuffered_eq_zero hwf).mpr hnil)
  · exact .inr ((ByteStream.isFinished_iff hwf).mp hfinished).1

/-- A rule answers. -/
theorem Answered.answer {before after : List (FDRule CopyFd CopyVars × Option Bool)}
    {rule : FDRule CopyFd CopyVars} (h : Answered kernel (before ++ (rule, none) :: after) w)
    (hwf : ∀ way, (w.vars.stream way).WF) :
    Answered kernel (before ++ (rule, some (rule.interest w)) :: after) w := by
  have hold : ∀ p ∈ before ++ (rule, some (rule.interest w)) :: after,
      p = (rule, some (rule.interest w)) ∨ p ∈ before ++ (rule, none) :: after := by
    intro p hp
    rcases List.mem_append.mp hp with hmem | hmem
    · exact .inr (List.mem_append_left _ hmem)
    · exact (List.mem_cons.mp hmem).imp_right fun hmem =>
        List.mem_append_right _ (List.mem_cons_of_mem _ hmem)
  refine ⟨fun way hp => ?_, fun way hp => ?_, fun p hp hfalse => ?_⟩
  · rcases hold _ hp with heq | hmem
    · obtain ⟨hrule, hanswer⟩ := Prod.mk.inj heq
      rw [← hrule, interest_reader] at hanswer
      exact readInterest_eq_true (Option.some.inj hanswer).symm
    · exact h.room way hmem
  · rcases hold _ hp with heq | hmem
    · obtain ⟨hrule, hanswer⟩ := Prod.mk.inj heq
      rw [← hrule, interest_writer] at hanswer
      exact writeInterest_eq_true (hwf way) (Option.some.inj hanswer).symm
    · exact h.ready way hmem
  · rcases hold _ hp with rfl | hmem
    · exact Option.some.inj hfalse
    · exact h.idle p hmem hfalse

/-! The lists. -/

/-- What is left of rules in their order is in order. -/
theorem Shape.of_sublist (h : Shape kernel rules) (hsub : rules'.Sublist rules) :
    Shape kernel rules' :=
  ⟨fun rule hrule => h.known rule (hsub.subset hrule), h.ordered.sublist hsub⟩

/-- Rules asked before have smaller identities. -/
theorem Shape.before_lt {before after : List (FDRule CopyFd CopyVars)}
    {rule r : FDRule CopyFd CopyVars} (h : Shape kernel (before ++ rule :: after))
    (hr : r ∈ before) : r.id < rule.id :=
  (List.pairwise_append.mp h.ordered).2.2 r hr rule List.mem_cons_self

/-- Rules asked afterwards have greater identities. -/
theorem Shape.lt_after {before after : List (FDRule CopyFd CopyVars)}
    {rule r : FDRule CopyFd CopyVars} (h : Shape kernel (before ++ rule :: after))
    (hr : r ∈ after) : rule.id < r.id :=
  (List.pairwise_cons.mp (List.pairwise_append.mp h.ordered).2.1).1 r hr

/-- A rule is removed, of which it is known why. -/
theorem Kept.remove {before after : List (FDRule CopyFd CopyVars)}
    {rule : FDRule CopyFd CopyVars} (h : Kept kernel (before ++ rule :: after) w)
    (hreader : ∀ way, reader kernel way = rule → (w.vars.stream way).eof = true)
    (hwriter : ∀ way, writer kernel way = rule →
      w.vars.shutdown way = true ∨ Broken way.sink w) : Kept kernel (before ++ after) w where
  uncancelled := h.uncancelled
  closed := h.closed
  ways := fun way => by
    have hgone : ∀ r, r ∉ before ++ after → r ≠ rule → r ∉ before ++ rule :: after := by
      intro r hr hne hmem
      rcases List.mem_append.mp hmem with hmem | hmem
      · exact hr (List.mem_append_left _ hmem)
      · exact hr (List.mem_append_right _ ((List.mem_cons.mp hmem).resolve_left hne))
    refine (h.ways way).remove (fun hr => ?_) fun hr => ?_
    · by_cases heq : reader kernel way = rule
      · exact hreader way heq
      · exact (h.ways way).readerGone (hgone _ hr heq)
    · by_cases heq : writer kernel way = rule
      · exact hwriter way heq
      · exact (h.ways way).writerGone (hgone _ hr heq)

/-! The steps of the loop. -/

/-- **A rule that is defunct** is cancelled: the stream of its way is closed, and the rule goes. -/
theorem Inv.defunct {before : List (FDRule CopyFd CopyVars × Bool)}
    {rule : FDRule CopyFd CopyVars} {after : List (FDRule CopyFd CopyVars)} :
    Triple (fun w => Inv kernel (asked before ++ (rule, none) :: unasked after) w ∧ rule.Defunct w)
      rule.cancel (fun _ => Inv kernel (asked before ++ unasked after)) (Thrown kernel) := by
  refine .of_state fun w ⟨h, hdefunct⟩ => ?_
  have hshape := h.shape
  have hkept := h.kept
  simp only [List.map_append, List.map_cons, map_fst_asked, map_fst_unasked] at hshape hkept
  have hshape' : Shape kernel ((asked before ++ unasked after).map (·.1)) := by
    simp only [List.map_append, map_fst_asked, map_fst_unasked]
    exact hshape.of_sublist (List.Sublist.append_left (List.sublist_cons_self _ _) _)
  have hanswered : Answered kernel (asked before ++ unasked after) w :=
    h.answered.mono fun p hp => .inr (List.mem_append.mpr
      ((List.mem_append.mp hp).imp_right (List.mem_cons_of_mem _)))
  obtain ⟨way, rfl | rfl⟩ := hshape.known rule (List.mem_append_right _ List.mem_cons_self)
  · -- no rule of this way has answered yet
    rw [cancel_reader]
    refine .modify ?_
    rintro w rfl
    have hends : Ends way w := by
      rcases hdefunct with ⟨-, heof⟩ | hclosed
      · rw [fd_reader] at heof
        exact .inl heof
      · have hfd := (hkept.closed _ hclosed).1
        rw [fd_reader] at hfd
        cases way <;> cases hfd
    refine ⟨hshape', ?_, hanswered.close hshape' (fun answer hp => ?_) fun hp => ?_⟩
    · simp only [List.map_append, map_fst_asked, map_fst_unasked]
      refine (hkept.close hends).remove (fun way' heq => ?_) fun way' heq => ?_
      · rw [reader_injective heq, stream_onStream]
        rfl
      · exact absurd heq.symm (reader_ne_writer way way')
    · rcases List.mem_append.mp hp with hmem | hmem
      · exact absurd (hshape.before_lt (mem_asked hmem)) (lt_irrefl _)
      · exact (mem_unasked hmem).2
    · rcases List.mem_append.mp hp with hmem | hmem
      · have hlt := hshape.before_lt (mem_asked hmem)
        rw [id_reader, id_writer] at hlt
        omega
      · cases (mem_unasked hmem).2
  · -- a sink that is closed has been shut down
    rw [cancel_writer]
    refine .modify ?_
    rintro w rfl
    have hshutdown : w.vars.shutdown way = true := by
      rcases hdefunct with ⟨hin, -⟩ | hclosed
      · cases way <;> cases hin
      · obtain ⟨hfd, hshutdown⟩ := hkept.closed _ hclosed
        rw [fd_writer] at hfd
        cases way
        · cases hfd
        · exact hshutdown
    rw [close_eq_self ((hkept.ways way).finishes hshutdown).1]
    refine ⟨hshape', ?_, hanswered⟩
    simp only [List.map_append, map_fst_asked, map_fst_unasked]
    refine hkept.remove (fun way' heq => ?_) fun way' heq => .inl ?_
    · exact absurd heq (reader_ne_writer way' way)
    · rw [writer_injective heq]
      exact hshutdown

/-- Answers that are all of rules that wait to be served. -/
theorem Answered.of_expected {before : List (FDRule CopyFd CopyVars)}
    {after : List (FDRule CopyFd CopyVars × Bool)}
    (hroom : ∀ way, (reader kernel way, some true) ∈ expected after →
      0 < (w.vars.stream way).availableCapacity.toNat ∧ (w.vars.stream way).eof ≠ true)
    (hready : ∀ way, (writer kernel way, some true) ∈ expected after →
      (w.vars.stream way).contents ≠ [] ∨ (w.vars.stream way).eof = true) :
    Answered kernel (unasked before ++ expected after) w := by
  have hafter : ∀ rule answer, (rule, some answer) ∈ unasked before ++ expected after →
      (rule, some answer) ∈ expected after := fun rule answer hp =>
    (List.mem_append.mp hp).resolve_left fun hmem => by cases (mem_unasked hmem).2
  refine ⟨fun way hp => hroom way (hafter _ _ hp), fun way hp => hready way (hafter _ _ hp),
    fun p hp hfalse => ?_⟩
  obtain ⟨rule, answer⟩ := p
  obtain rfl : answer = some false := hfalse
  exact absurd rfl (mem_expected (hafter _ _ hp)).2

/-- A rule goes because something is wrong with its descriptor. -/
theorem Inv.broken {before : List (FDRule CopyFd CopyVars)} {rule : FDRule CopyFd CopyVars}
    {answer : Option Bool} {after : List (FDRule CopyFd CopyVars × Bool)}
    (h : Inv kernel (unasked before ++ (rule, answer) :: expected after) w)
    (hkept : Kept kernel (before ++ rule :: after.map (·.1)) w') (hbroken : Broken rule.fd w')
    (hstream : ∀ way, (w'.vars.stream way).availableCapacity = (w.vars.stream way).availableCapacity
      ∧ (w'.vars.stream way).eof = (w.vars.stream way).eof
      ∧ (w'.vars.stream way).contents = (w.vars.stream way).contents) :
    Triple (fun t => t = w') rule.cancel
      (fun _ => Inv kernel (unasked before ++ expected after)) (Thrown kernel) := by
  have hshape := h.shape
  simp only [List.map_append, List.map_cons, map_fst_expected, map_fst_unasked] at hshape
  have hshape' : Shape kernel ((unasked before ++ expected after).map (·.1)) := by
    simp only [List.map_append, map_fst_expected, map_fst_unasked]
    exact hshape.of_sublist (List.Sublist.append_left (List.sublist_cons_self _ _) _)
  have hafter : ∀ p ∈ expected after, p ∈ unasked before ++ (rule, answer) :: expected after :=
    fun p hp => List.mem_append_right _ (List.mem_cons_of_mem _ hp)
  have hanswered : Answered kernel (unasked before ++ expected after) w' := by
    refine .of_expected (fun way hp => ?_) fun way hp => ?_
    · rw [(hstream way).1, (hstream way).2.1]
      exact h.answered.room way (hafter _ hp)
    · rw [(hstream way).2.2, (hstream way).2.1]
      exact h.answered.ready way (hafter _ hp)
  obtain ⟨way, hrule⟩ := hshape.known rule (List.mem_append_right _ List.mem_cons_self)
  -- the rules of the way are not asked again, or can go on without its source
  have hreader : ∀ answer, (reader kernel way, answer) ∈ unasked before ++ expected after →
      answer = none := by
    intro answer hp
    rcases List.mem_append.mp hp with hmem | hmem
    · exact (mem_unasked hmem).2
    · have hlt := hshape.lt_after (mem_expected hmem).1
      rw [id_reader] at hlt
      rcases hrule with rfl | rfl
      · rw [id_reader] at hlt
        omega
      · rw [id_writer] at hlt
        omega
  have hwriter : (writer kernel way, some false) ∉ unasked before ++ expected after := by
    intro hp
    rcases List.mem_append.mp hp with hmem | hmem
    · cases (mem_unasked hmem).2
    · exact absurd rfl (mem_expected hmem).2
  have hends : Ends way w' := by
    rcases hrule with rfl | rfl
    · rw [fd_reader] at hbroken
      exact .inr (.inl hbroken)
    · rw [fd_writer] at hbroken
      exact .inr (.inr hbroken)
  have hcancel : rule.cancel = modify (onStream way ByteStream.close) := by
    rcases hrule with rfl | rfl
    · exact cancel_reader way
    · exact cancel_writer way
  rw [hcancel]
  refine .modify ?_
  rintro _ rfl
  refine ⟨hshape', ?_, hanswered.close hshape' hreader hwriter⟩
  simp only [List.map_append, map_fst_expected, map_fst_unasked]
  refine (hkept.close hends).remove (fun way' heq => ?_) fun way' heq => .inr ?_
  · rcases hrule with rfl | rfl
    · rw [reader_injective heq, stream_onStream]
      rfl
    · exact absurd heq (reader_ne_writer way' way)
  · rw [← heq, fd_writer] at hbroken
    exact hbroken

/-- Looking at the error of a descriptor fails for an unreliable kernel only. -/
theorem checkSocket_triple {fd : CopyFd} :
    Triple (fun t => t = w) (checkSocket kernel fd : CopyM PUnit) (fun _ t => t = w.called)
      (fun _ t => t = w.called ∧ ¬ Reliable kernel) := by
  refine EventLoop.checkSocket_triple.mono (fun _ ht => ht) (fun _ _ ht => ht) ?_
  rintro _ t ⟨ht, hanswer⟩
  refine ⟨ht, fun h => ?_⟩
  rcases h.getsockopt w.calls fd with hnotsock | ⟨e, he⟩
  · exact hanswer.1 hnotsock
  · exact hanswer.2 e he

/-- Both streams have an error. -/
theorem stream_setErrors (w : World CopyFd CopyVars) (way : Way) :
    (setErrors w).vars.stream way = (w.vars.stream way).setError := by
  cases way <;> rfl

/-- **A descriptor that failed**: both streams have an error, and the rule goes. -/
theorem Inv.failed {before : List (FDRule CopyFd CopyVars)} {rule : FDRule CopyFd CopyVars}
    {answer : Option Bool} {after : List (FDRule CopyFd CopyVars × Bool)} :
    Triple (Inv kernel (unasked before ++ (rule, answer) :: expected after))
      (do checkSocket kernel rule.fd; modify (·.onFail rule.fd); rule.error; rule.cancel)
      (fun _ => Inv kernel (unasked before ++ expected after)) (Thrown kernel) := by
  refine .of_state fun w h => ?_
  have hkept := h.kept
  simp only [List.map_append, List.map_cons, map_fst_expected, map_fst_unasked] at hkept
  obtain ⟨way, hrule⟩ := h.shape.known rule (List.mem_map_of_mem
    (List.mem_append_right _ List.mem_cons_self))
  have herror : rule.error = modify setErrors := by
    rcases hrule with rfl | rfl <;> cases way <;> rfl
  refine .bind (checkSocket_triple.mono (fun _ ht => ht) (fun _ _ ht => ht) ?_) fun _ => .bind
    (.modify (Q := fun _ t => t = w.called.onFail rule.fd) ?_) fun _ => ?_
  · rintro e t ⟨rfl, hnot⟩
    exact ⟨hkept.called.safe, hnot⟩
  · rintro _ rfl
    rfl
  have hfailed : ((w.called.onFail rule.fd).traffic rule.fd).failed = true :=
    congrArg Traffic.failed w.called.traffic_touch_self
  rw [herror]
  refine .bind (.modify (Q := fun _ t => t = setErrors (w.called.onFail rule.fd)) ?_) fun _ =>
    h.broken ?_ (.inl ?_) fun way' => ?_
  · rintro _ rfl
    rfl
  · exact ((hkept.called.fail rule.fd).setError .outbound ⟨rule.fd, hfailed⟩).setError .inbound
      ⟨rule.fd, hfailed⟩
  · exact hfailed
  · rw [stream_setErrors]
    exact ⟨rfl, rfl, rfl⟩

/-- **A descriptor that hung up**: the stream of the way is closed, and the rule goes. -/
theorem Inv.hungUp {before : List (FDRule CopyFd CopyVars)} {rule : FDRule CopyFd CopyVars}
    {answer : Option Bool} {after : List (FDRule CopyFd CopyVars × Bool)} :
    Triple (Inv kernel (unasked before ++ (rule, answer) :: expected after))
      (do modify (·.onHangUp rule.fd); rule.cancel)
      (fun _ => Inv kernel (unasked before ++ expected after)) (Thrown kernel) := by
  refine .of_state fun w h => ?_
  have hkept := h.kept
  simp only [List.map_append, List.map_cons, map_fst_expected, map_fst_unasked] at hkept
  refine .bind (.modify (Q := fun _ t => t = w.onHangUp rule.fd) ?_) fun _ =>
    h.broken (hkept.hangUp rule.fd) (.inr ?_) fun way' => ⟨rfl, rfl, rfl⟩
  · rintro _ rfl
    rfl
  · exact congrArg Traffic.hungUp w.traffic_touch_self

/-- A rule is called back. -/
theorem Inv.served {before : List (FDRule CopyFd CopyVars)} {rule : FDRule CopyFd CopyVars}
    {after : List (FDRule CopyFd CopyVars × Bool)} (count : UInt32) :
    Triple (fun w => Inv kernel (unasked before ++ (rule, some true) :: expected after) w ∧
        rule.serviceCount w = count) rule.callback
      (fun _ w => Inv kernel (unasked (before ++ rule :: after.map (·.1))) w ∧
        (count = rule.serviceCount w → (w.fds rule.fd).closed = false → rule.interest w = true →
          ∀ what, Thrown kernel (.runtimeError what) w)) (Thrown kernel) := by
  refine .of_state fun w ⟨h, hcount⟩ => ?_
  have hshape := h.shape
  have hkept := h.kept
  simp only [List.map_append, List.map_cons, map_fst_expected, map_fst_unasked] at hshape hkept
  have hmem : (rule, some true) ∈ unasked before ++ (rule, some true) :: expected after :=
    List.mem_append_right _ List.mem_cons_self
  -- no answer is left
  have hinv : ∀ t, Kept kernel (before ++ rule :: after.map (·.1)) t →
      Inv kernel (unasked (before ++ rule :: after.map (·.1))) t := by
    intro t ht
    refine ⟨?_, ?_, answered_unasked _ _⟩
    · rwa [map_fst_unasked]
    · rwa [map_fst_unasked]
  obtain ⟨way, rfl | rfl⟩ := hshape.known rule (List.mem_append_right _ List.mem_cons_self)
  · rw [callback_reader]
    refine (readCallback_triple count).mono ?_ (fun _ t ht => ⟨hinv t ht.1, fun hsame _ _ _ =>
      ⟨ht.1.safe, ht.2 ?_⟩⟩) fun _ _ he => he
    · rintro w rfl
      exact ⟨hkept, h.answered.room way hmem, (serviceCount_reader way w).symm.trans hcount⟩
    · exact (serviceCount_reader way t).symm.trans hsame.symm
  · rw [callback_writer]
    refine (writeCallback_triple count (finish_triple way)).mono ?_ (fun _ t ht => ⟨hinv t ht.1,
      fun hsame hopen => ?_⟩) fun _ _ he => he
    · rintro w rfl
      exact ⟨hkept, h.answered.ready way hmem, (serviceCount_writer way w).symm.trans hcount⟩
    · -- the sink has been closed, so nobody asks
      rw [fd_writer, ht.2 ((serviceCount_writer way t).symm.trans hsame.symm)] at hopen
      cases hopen

/-- **The rules** keep what is known. -/
theorem sound : Sound kernel [] (Inv kernel) (fun rules => Inv kernel (unasked rules))
    (Thrown kernel) where
  basic := nofun
  busy := nofun
  cancelled := fun before rule after w h hcancel => by
    rw [h.kept.uncancelled] at hcancel
    cases hcancel
  defunct := fun _ _ _ => Inv.defunct
  answers := fun before rule after w h _ => by
    refine ⟨?_, ?_, h.answered.answer fun way => (h.kept.ways way).wf⟩
    · simpa using h.shape
    · simpa using h.kept
  polls := fun polled w h => by
    refine ⟨?_, ?_, ?_⟩
    · simpa using h.shape
    · simpa using h.kept.called
    · show Answered kernel (unasked [] ++ expected polled) _
      exact .of_expected (fun way hp => h.answered.room way (mem_asked_of_expected hp))
        fun way hp => h.answered.ready way (mem_asked_of_expected hp)
  pollFails := fun polled w fds timeoutMs e h he => ⟨h.kept.called.safe, fun hreliable => by
    obtain ⟨reports, hreports⟩ := hreliable.poll w.calls fds timeoutMs
    rw [he] at hreports
    cases hreports⟩
  failed := fun _ _ _ _ => Inv.failed
  hungUp := fun _ _ _ _ => Inv.hungUp
  served := fun _ _ _ count => Inv.served count
  ends := fun before after w h => by
    refine ⟨?_, ?_, answered_unasked _ _⟩
    · simpa using h.shape
    · simpa using h.kept
  skip := fun before rule answer after w h => by
    refine ⟨?_, ?_, h.answered.mono fun p hp => ?_⟩
    · simpa using h.shape
    · simpa using h.kept
    · rcases List.mem_append.mp hp with hmem | hmem
      · exact .inr (List.mem_append_left _ hmem)
      · rcases List.mem_cons.mp hmem with rfl | hmem
        · exact .inl rfl
        · exact .inr (List.mem_append_right _ (List.mem_cons_of_mem _ hmem))

/-! ### Runs -/

/-- Nothing has happened yet. -/
structure Initial (w : World CopyFd CopyVars) : Prop where
  uncancelled : w.cancelRequested = []
  closed : ∀ fd, (w.fds fd).closed = false
  traffic : ∀ fd, w.traffic fd = {}

/-- The copy has returned: no rule that is left has anything to do. -/
def Returned (kernel : Kernel CopyFd) (w : World CopyFd CopyVars) : Prop :=
  ∃ rules : List (FDRule CopyFd CopyVars), Inv kernel (asked (rules.map (·, false))) w

/-- Turns of the loop keep the invariant, and an exit leaves no rule that is interested. -/
theorem turns_triple (n : ℕ) {loop : EventLoop CopyFd CopyVars} (hloop : loop.nonFdRules = []) :
    Triple (Inv kernel (unasked loop.fdRules)) (turns kernel n loop)
      (fun out w => Safe w ∧ (out.1 = true → Returned kernel w)) (Thrown kernel) := by
  induction n generalizing loop with
  | zero => exact .pure _ fun w h => ⟨h.kept.safe, nofun⟩
  | succ n ih =>
    have hturn := (hloop ▸ sound : Sound kernel loop.nonFdRules _ _ _).waitNextEvent (-1)
    refine .bind hturn fun out => ?_
    obtain ⟨result, loop'⟩ := out
    refine .ite (fun hexit => .pure _ fun w h => ?_) fun hnot => .of_state fun w h =>
      (ih (List.subset_nil.mp (hloop ▸ h.1))).pre ?_
    · exact ⟨(h.2.2 hexit).kept.safe, fun _ => ⟨_, h.2.2 hexit⟩⟩
    · rintro _ rfl
      exact h.2.1 hnot

/-- A system call without a trace. -/
theorem Initial.called (h : Initial w) : Initial w.called :=
  ⟨h.uncancelled, h.closed, h.traffic⟩

/-- A descriptor was made. -/
theorem Initial.onNew (h : Initial w) (fd : CopyFd) : Initial (w.onNew fd) where
  uncancelled := h.uncancelled
  closed := fun fd' => by
    by_cases heq : fd' = fd
    · rw [heq, World.onNew, World.fds_touch_self]
    · rw [World.onNew, World.fds_touch_of_ne w heq]
      exact h.closed fd'
  traffic := fun fd' => by
    refine (w.traffic_touch id ?_).trans (h.traffic fd')
    exact fun _ _ => rfl

/-- A descriptor was made blocking, or not. -/
theorem Initial.onSetBlocking (h : Initial w) (fd : CopyFd) (blocking : Bool) :
    Initial (w.onSetBlocking fd blocking) where
  uncancelled := h.uncancelled
  closed := fun fd' => by
    refine (w.fds_touch (·.closed) ?_).trans (h.closed fd')
    exact fun _ _ => rfl
  traffic := fun fd' => by
    refine (w.traffic_touch id ?_).trans (h.traffic fd')
    exact fun _ _ => rfl

/-- Nothing was given to any sink yet. -/
theorem Initial.safe (h : Initial w) : Safe w := by
  intro way
  rw [h.traffic, h.traffic]

/-- The streams are new. -/
def Fresh (w : World CopyFd CopyVars) : Prop :=
  (∀ way, w.vars.stream way = ByteStream.empty bufferSize) ∧ ∀ way, w.vars.shutdown way = false

/-- An error of a system call before anything has passed. -/
theorem Initial.thrown (h : Initial w) {fd : CopyFd} {e : Errno}
    (he : kernel.fcntl w.calls fd = .error e) :
    Thrown kernel (kernel.unixError "fcntl" e) w.called := by
  refine ⟨h.called.safe, fun hreliable => ?_⟩
  obtain ⟨flags, hflags⟩ := hreliable.fcntl w.calls fd
  rw [he] at hflags
  cases hflags

/-- Making a descriptor moves no bytes. -/
theorem new_triple (fd : CopyFd) :
    Triple Initial (FileDescriptor.new kernel fd) (fun _ => Initial) (Thrown kernel) :=
  FileDescriptor.new_triple (fun _ hw => hw.onNew fd) (fun _ hw => hw.called)
    (fun _ blocking hw => hw.onSetBlocking fd blocking) fun _ _ hw he => hw.thrown he

/-- Making a descriptor non-blocking moves no bytes. -/
theorem setBlocking_triple (fd : CopyFd) :
    Triple (fun w => Initial w ∧ Fresh w) (FileDescriptor.setBlocking kernel fd false)
      (fun _ w => Initial w ∧ Fresh w) (Thrown kernel) :=
  FileDescriptor.setBlocking_triple (fun _ hw => ⟨hw.1.called, hw.2⟩)
    (fun _ hw => ⟨hw.1.onSetBlocking fd false, hw.2⟩) fun _ _ hw he => hw.1.thrown he

/-- All rules are there at first. -/
theorem eventloop_eq : eventloop kernel = .ok
    { ruleCategories := ["read from stdin into outbound byte stream",
        "read from outbound byte stream into socket",
        "read from socket into inbound byte stream",
        "read from inbound byte stream into stdout"]
      fdRules := [readStdin kernel, writeSocket kernel, readSocket kernel, writeStdout kernel]
      nextRule := 4 } :=
  rfl

/-- At first nothing has passed. -/
theorem Initial.inv (h : Initial w) (hfresh : Fresh w) : Inv kernel
    (unasked [readStdin kernel, writeSocket kernel, readSocket kernel, writeStdout kernel]) w := by
  have hnew : ByteStream.new bufferSize = .ok (ByteStream.empty bufferSize) :=
    ByteStream.new_eq_ok (by decide)
  obtain ⟨hwf, hnil, hcapacity, heof, herror, -⟩ := ByteStream.new_spec hnew
  refine ⟨⟨?_, ?_⟩, ⟨h.uncancelled, fun fd hfd => ?_, fun way => ?_⟩, answered_unasked _ w⟩
  · rw [map_fst_unasked]
    simp only [List.mem_cons, List.not_mem_nil, or_false]
    rintro rule (rfl | rfl | rfl | rfl)
    · exact ⟨.outbound, .inl rfl⟩
    · exact ⟨.outbound, .inr rfl⟩
    · exact ⟨.inbound, .inl rfl⟩
    · exact ⟨.inbound, .inr rfl⟩
  · rw [map_fst_unasked, ← List.pairwise_map]
    show [0, 1, 2, 3].Pairwise (· < ·)
    decide
  · rw [h.closed] at hfd
    cases hfd
  · rw [map_fst_unasked]
    refine ⟨?_, ?_, ?_, fun hclosed => ?_, fun hfailed => ?_, fun hshutdown => ?_, fun hgone => ?_,
      fun hgone => ?_⟩
    · rwa [hfresh.1]
    · rwa [hfresh.1]
    · rw [hfresh.1, h.traffic, h.traffic, hnil]
      rfl
    · rw [hfresh.1, heof] at hclosed
      cases hclosed
    · rw [hfresh.1, herror] at hfailed
      cases hfailed
    · rw [hfresh.2] at hshutdown
      cases hshutdown
    · refine absurd ?_ hgone
      cases way <;> simp [reader]
    · refine absurd ?_ hgone
      cases way <;> simp [writer]

/-- **The whole copy.**  It is safe however it ends, and when it returns, no rule has anything left
    to do. -/
theorem copy_triple (n : ℕ) :
    Triple Initial (bidirectionalStreamCopy kernel n)
      (fun returned w => Safe w ∧ (returned = true → Returned kernel w)) (Thrown kernel) := by
  have hnew : ByteStream.new bufferSize = .ok (ByteStream.empty bufferSize) :=
    ByteStream.new_eq_ok (by decide)
  refine .bind (new_triple .input) fun _ => .bind (new_triple .output) fun _ =>
    .bind (SysM.attempt_eq_ok hnew) fun outbound => .bind (SysM.attempt_eq_ok hnew) fun inbound =>
    .bind (.modify (Q := fun _ w => Initial w ∧ Fresh w) ?_) fun _ =>
    .bind (setBlocking_triple .socket) fun _ => .bind (setBlocking_triple .input) fun _ =>
    .bind (setBlocking_triple .output) fun _ => .bind (SysM.attempt_eq_ok eventloop_eq) fun loop =>
    .of_state fun w hw => ?_
  · rintro w ⟨rfl, rfl, h⟩
    exact ⟨⟨h.uncancelled, h.closed, h.traffic⟩, fun way => by cases way <;> rfl, fun _ => rfl⟩
  · obtain ⟨rfl, hinitial, hfresh⟩ := hw
    refine .bind ((turns_triple n rfl).pre ?_) fun out => .pure _ fun t ht => ht
    rintro _ rfl
    exact hinitial.inv hfresh

/-- A way is done: all that was taken from the source was given to the sink, which has been told
    that there is no more. -/
def Done (way : Way) (w : World CopyFd CopyVars) : Prop :=
  (w.traffic way.source).taken.flatten = (w.traffic way.sink).given.flatten ∧
    (w.traffic way.sink).ended = true ∧
    ((w.fds way.source).eof = true ∨ (w.traffic way.source).hungUp = true)

/-- When nothing is left to do, each way is done, unless something went wrong. -/
theorem Returned.done (h : Returned kernel w) (hfailed : ∀ fd, (w.traffic fd).failed = false)
    (hsink : (w.traffic way.sink).hungUp = false) : Done way w := by
  obtain ⟨rules, hinv⟩ := h
  have hkept := hinv.kept
  rw [map_fst_asked, List.map_map] at hkept
  have hway := hkept.ways way
  have hbroken : ¬ Broken way.sink w := by
    rintro (hfail | hhup)
    · rw [hfailed] at hfail
      cases hfail
    · rw [hsink] at hhup
      cases hhup
  have hno : ∀ way, (w.vars.stream way).hasError = false := by
    intro way
    by_contra herror
    obtain ⟨fd, hfd⟩ := (hkept.ways way).errors (Bool.eq_true_of_not_eq_false herror)
    rw [hfailed] at hfd
    cases hfd
  have hidle : ∀ rule ∈ rules, rule.interest w = false := by
    intro rule hrule
    refine hinv.answered.idle (rule, some false) ?_ rfl
    exact List.mem_map_of_mem (List.mem_map_of_mem hrule)
  have hrules : rules.map ((·.1) ∘ (·, false)) = rules := List.map_id _
  rw [hrules] at hway
  -- the stream has been emptied and its sink been told
  have hshutdown : w.vars.shutdown way = true := by
    by_contra hopen
    have hwriter : writer kernel way ∈ rules := by
      by_contra hgone
      exact (hway.writerGone hgone).elim hopen hbroken
    have hwrite := hidle _ hwriter
    rw [interest_writer, writeInterest, Bool.or_eq_false_iff] at hwrite
    have hnil : (w.vars.stream way).contents = [] :=
      (ByteStream.bytesBuffered_eq_zero hway.wf).mp (by simpa using hwrite.1)
    have heof : (w.vars.stream way).eof ≠ true := by
      intro heof
      have hfinished := (ByteStream.isFinished_iff hway.wf).mpr ⟨heof, hnil⟩
      rw [hfinished, Bool.true_and, Bool.not_eq_false'] at hwrite
      exact hopen hwrite.2
    have hreader : reader kernel way ∈ rules := by
      by_contra hgone
      exact heof (hway.readerGone hgone)
    have hread := hidle _ hreader
    have hroom : (w.vars.stream way).availableCapacity > 0 := by
      have hlength := ByteStream.length_contents hway.wf
      rw [hnil, hway.capacity_eq, List.length_nil, Nat.zero_add] at hlength
      rw [gt_iff_lt, UInt64.lt_iff_toNat_lt, hlength]
      decide
    rw [interest_reader, readInterest, hno, hno, decide_eq_true hroom] at hread
    have hclosed : (w.vars.stream way).isClosed = true := by simpa using hread
    exact heof hclosed
  obtain ⟨heof, hnil, hended⟩ := hway.finishes hshutdown
  refine ⟨?_, hended, ?_⟩
  · rw [hway.taken_eq, hnil, List.append_nil]
  · rcases hway.closes heof with hsource | (hfail | hhup) | hsink
    · exact .inl hsource
    · rw [hfailed] at hfail
      cases hfail
    · exact .inr hhup
    · exact absurd hsink hbroken

/-- **Safety.**  Whatever the kernel answers, and however long the copy runs, also when it is left
    by an exception: what was given to a sink is a first part of what was taken from its source. -/
theorem copy_safe (kernel : Kernel CopyFd) (n : ℕ) (w : World CopyFd CopyVars) (h : Initial w) :
    Safe ((bidirectionalStreamCopy kernel n).run.run w).2 := by
  have hout : ExceptState.Outcome _ (Thrown kernel) _ := copy_triple n w h
  cases hrun : (bidirectionalStreamCopy kernel n).run.run w with
  | mk result w' =>
    rw [hrun] at hout
    cases result with
    | ok returned => exact hout.1
    | error e => exact hout.1

/-- A kernel that answers at once; the standard input gives one byte, and the socket none. -/
def promptKernel : Kernel CopyFd where
  read := fun n fd size => .ok (if n = 9 ∧ fd = .input then [42].take size else [])
  readv := fun _ _ _ => .ok []
  writev := fun _ _ buffers => .ok buffers.flatten.length
  shutdown := fun _ _ _ => .ok ⟨⟩
  close := fun _ _ => .ok ⟨⟩
  fcntl := fun _ _ => .ok 0
  poll := fun _ fds _ => .ok (fds.map fun p =>
    { pollin := p.events = some .In, pollout := p.events = some .Out })
  getsockopt := fun _ _ => .error ENOTSOCK
  strerror := fun _ => ""

/-- Empty streams and unused descriptors. -/
def initialWorld : World CopyFd CopyVars where
  vars := { stream := fun _ => ByteStream.empty bufferSize }
  fds := fun _ => {}

/-- It never fails. -/
theorem promptKernel_reliable : Reliable promptKernel where
  read := fun n fd size => ⟨_, rfl, by split <;> simp⟩
  writev := fun n fd buffers => ⟨_, rfl, le_rfl, List.length_eq_zero_iff.mp⟩
  shutdown := fun _ _ _ => rfl
  close := fun _ _ => rfl
  fcntl := fun _ _ => ⟨_, rfl⟩
  poll := fun _ _ _ => ⟨_, rfl⟩
  getsockopt := fun _ _ => .inl rfl

/-- Nothing has happened in it. -/
theorem initialWorld_initial : Initial initialWorld :=
  ⟨rfl, fun _ => rfl, fun _ => rfl⟩

/-- The copy over the prompt kernel is safe. -/
theorem copy_safe_promptKernel :
    Safe ((bidirectionalStreamCopy promptKernel 12).run.run initialWorld).2 :=
  copy_safe promptKernel 12 initialWorld initialWorld_initial

/-- **Completeness.**  When the copy returns, without an error having been reported of a descriptor,
    each way of which the sink has not hung up is done. -/
theorem copy_complete (kernel : Kernel CopyFd) (n : ℕ) (w w' : World CopyFd CopyVars)
    (h : Initial w) (hrun : (bidirectionalStreamCopy kernel n).run.run w = (.ok true, w'))
    (hfailed : ∀ fd, (w'.traffic fd).failed = false) (way : Way)
    (hsink : (w'.traffic way.sink).hungUp = false) : Done way w' := by
  have hout : ExceptState.Outcome _ (Thrown kernel) _ := copy_triple n w h
  rw [hrun] at hout
  exact (hout.2 rfl).done hfailed hsink

/-- The copy over the prompt kernel copies all that is typed. -/
theorem copy_complete_promptKernel :
    Done .outbound ((bidirectionalStreamCopy promptKernel 12).run.run initialWorld).2 :=
  copy_complete promptKernel 12 initialWorld _ initialWorld_initial
    (Prod.fst_eq_iff.mp (by decide +kernel)) (fun fd => by cases fd <;> decide +kernel) .outbound
    (by decide +kernel)

/-- **No exception** leaves the copy when the kernel is reliable; in particular no rule is ever
    found to be waiting busily. -/
theorem copy_never_throws (kernel : Kernel CopyFd) (hreliable : Reliable kernel) (n : ℕ)
    (w : World CopyFd CopyVars) (h : Initial w) :
    ∃ returned w', (bidirectionalStreamCopy kernel n).run.run w = (.ok returned, w') := by
  have hout : ExceptState.Outcome _ (Thrown kernel) _ := copy_triple n w h
  cases hrun : (bidirectionalStreamCopy kernel n).run.run w with
  | mk result w' =>
    rw [hrun] at hout
    cases result with
    | ok returned => exact ⟨returned, w', rfl⟩
    | error e => exact absurd hreliable hout.2

/-- The copy over the prompt kernel returns. -/
theorem copy_never_throws_promptKernel : ∃ returned w',
    (bidirectionalStreamCopy promptKernel 12).run.run initialWorld = (.ok returned, w') :=
  copy_never_throws promptKernel promptKernel_reliable 12 initialWorld initialWorld_initial

end StreamCopy

end Minnow
