import Minnow.FileDescriptor

namespace Minnow

/-!
# The event loop

An event loop asks its rules whether they are interested, polls their descriptors, and calls back
one rule that is ready.  A rule whose descriptor is done with is cancelled and removed.

* `EventLoop.waitNextEvent` — one turn of the loop;
* `EventLoop.Sound` — what the functions of the rules must keep; an assertion is told which rules
  are left, and of each whether it has been asked and what it said;
* `EventLoop.Sound.waitNextEvent` — a turn of the loop keeps it.

The functions of a rule change the program, not the loop.  Output for debugging is left out.
-/

/-- A rule that is called back as long as it is interested. -/
structure BasicRule (ι α : Type) where
  id : ℕ
  categoryId : ℕ
  interest : World ι α → Bool
  callback : SysM ι α PUnit

/-- A rule that is called back when it is interested and its descriptor is ready. -/
structure FDRule (ι α : Type) extends BasicRule ι α where
  /-- the descriptor to monitor -/
  fd : ι
  direction : EventLoop.Direction
  /-- called when the rule is cancelled, on EOF or hang-up -/
  cancel : SysM ι α PUnit
  /-- called when the descriptor has an error, before cancellation -/
  error : SysM ι α PUnit

/-- The names of the categories, and the rules in the order in which they were added. -/
structure EventLoop (ι α : Type) where
  ruleCategories : List String := []
  fdRules : List (FDRule ι α) := []
  nonFdRules : List (BasicRule ι α) := []
  /-- the identity of the next rule -/
  nextRule : ℕ := 0

variable {ι α : Type}

namespace FDRule

/-- How often the descriptor has been read or written. -/
def serviceCount (rule : FDRule ι α) (w : World ι α) : UInt32 :=
  match rule.direction with
  | .In => (w.fds rule.fd).readCount
  | .Out => (w.fds rule.fd).writeCount

/-- There is nothing more to be expected of the descriptor. -/
def Defunct (rule : FDRule ι α) (w : World ι α) : Prop :=
  rule.direction = .In ∧ (w.fds rule.fd).eof = true ∨ (w.fds rule.fd).closed = true

instance (rule : FDRule ι α) (w : World ι α) : Decidable (rule.Defunct w) :=
  inferInstanceAs (Decidable (_ ∨ _))

end FDRule

/-- What is asked for is reported. -/
def Revents.ready (r : Revents) : Option EventLoop.Direction → Bool
  | none => false
  | some .In => r.pollin
  | some .Out => r.pollout

namespace EventLoop

/-- Returned by each turn of the loop. -/
inductive Result where
  /-- a rule was served -/
  | Success
  /-- no rule was served before the timeout -/
  | Timeout
  /-- all rules have been cancelled or are not interested -/
  | Exit
deriving DecidableEq, Repr

/-- The memory that is reserved for categories. -/
def maxCategories : ℕ := 64

/-- `add_category( name )`; there are at most 64 categories. -/
def addCategory (loop : EventLoop ι α) (name : String) :
    Except StdException (EventLoop ι α × ℕ) :=
  if loop.ruleCategories.length ≥ maxCategories then
    .error (.runtimeError "maximum categories reached")
  else .ok ({ loop with ruleCategories := loop.ruleCategories ++ [name] },
    loop.ruleCategories.length)

/-- Add a rule with the identity that is next. -/
def addRule (loop : EventLoop ι α) (rule : FDRule ι α) :
    Except StdException (EventLoop ι α × ℕ) :=
  if rule.categoryId ≥ loop.ruleCategories.length then .error (.outOfRange "bad category_id")
  else .ok ({ loop with
      fdRules := loop.fdRules ++ [{ rule with id := loop.nextRule }]
      nextRule := loop.nextRule + 1 }, loop.nextRule)

/-- `add_rule( category_id, callback, interest )` -/
def addBasicRule (loop : EventLoop ι α) (rule : BasicRule ι α) :
    Except StdException (EventLoop ι α × ℕ) :=
  if rule.categoryId ≥ loop.ruleCategories.length then .error (.outOfRange "bad category_id")
  else .ok ({ loop with
      nonFdRules := loop.nonFdRules ++ [{ rule with id := loop.nextRule }]
      nextRule := loop.nextRule + 1 }, loop.nextRule)

/-- Add a category and a rule at the same time. -/
def addNamedRule (loop : EventLoop ι α) (name : String) (rule : FDRule ι α) :
    Except StdException (EventLoop ι α × ℕ) := do
  let (loop, categoryId) ← loop.addCategory name
  loop.addRule { rule with categoryId }

/-- `RuleHandle::cancel`; there is no harm in cancelling a rule that is gone. -/
def cancel (id : ℕ) : SysM ι α PUnit :=
  modify fun w => { w with cancelRequested := id :: w.cancelRequested }

/-! ### One turn -/

/-- The name of a rule in messages. -/
def ruleName (loop : EventLoop ι α) (rule : BasicRule ι α) : String :=
  loop.ruleCategories.getD rule.categoryId ""

/-- Call a rule back as long as it is interested, so many times at most; was it called back? -/
def serveBasicRule (name : String) (rule : BasicRule ι α) : ℕ → Bool → SysM ι α Bool
  | 0, ruleFired => do
    if rule.interest (← get) then
      throw (.runtimeError ("EventLoop: busy wait detected: rule \"" ++ name
        ++ "\" is still interested after 129 iterations"))
    return ruleFired
  | n + 1, ruleFired => do
    if rule.interest (← get) then
      rule.callback
      serveBasicRule name rule n true
    else return ruleFired

/-- The rules without descriptors that are left, and whether one was served. -/
def serveBasicRules (loop : EventLoop ι α) :
    List (BasicRule ι α) → SysM ι α (List (BasicRule ι α) × Bool)
  | [] => return ([], false)
  | rule :: rules => do
    if rule.id ∈ (← get).cancelRequested then serveBasicRules loop rules
    else
      let ruleFired ← serveBasicRule (loop.ruleName rule) rule 128 false
      -- only serve one rule on each iteration
      if ruleFired then return (rule :: rules, true)
      else
        let (rules, ruleFired) ← serveBasicRules loop rules
        return (rule :: rules, ruleFired)

/-- Ask each rule whether it is interested; the rules that are left, with their answers. -/
def setUp : List (FDRule ι α) → SysM ι α (List (FDRule ι α × Bool))
  | [] => return []
  | rule :: rules => do
    let w ← get
    -- no need to call the cancellation callback of a rule that is cancelled externally
    if rule.id ∈ w.cancelRequested then setUp rules
    else if rule.Defunct w then
      rule.cancel
      setUp rules
    else
      let interested := rule.interest w
      let polled ← setUp rules
      return (rule, interested) :: polled

/-- The entry of a rule; of one that is not interested errors are still wanted. -/
def pollFd (polled : FDRule ι α × Bool) : PollFd ι :=
  { fd := polled.1.fd, events := if polled.2 then some polled.1.direction else none }

/-! Lists of rules, with their answers to those who ask. -/

/-- The rules, of which nobody has been asked. -/
def unasked (rules : List (FDRule ι α)) : List (FDRule ι α × Option Bool) :=
  rules.map fun rule => (rule, none)

/-- The rules with their answers. -/
def asked (polled : List (FDRule ι α × Bool)) : List (FDRule ι α × Option Bool) :=
  polled.map fun p => (p.1, some p.2)

/-- The rules that were polled; of those that were not interested the answer is forgotten. -/
def expected (polled : List (FDRule ι α × Bool)) : List (FDRule ι α × Option Bool) :=
  polled.map fun p => (p.1, if p.2 then some true else none)

@[simp] theorem map_fst_unasked (rules : List (FDRule ι α)) :
    (unasked rules).map (·.1) = rules := by
  rw [unasked, List.map_map]
  exact List.map_id _

@[simp] theorem map_fst_asked (polled : List (FDRule ι α × Bool)) :
    (asked polled).map (·.1) = polled.map (·.1) := by
  rw [asked, List.map_map]
  rfl

@[simp] theorem map_fst_expected (polled : List (FDRule ι α × Bool)) :
    (expected polled).map (·.1) = polled.map (·.1) := by
  rw [expected, List.map_map]
  rfl

/-- A rule that has not been asked is one of the rules, without an answer. -/
theorem mem_unasked {rules : List (FDRule ι α)} {rule : FDRule ι α} {answer : Option Bool}
    (h : (rule, answer) ∈ unasked rules) : rule ∈ rules ∧ answer = none := by
  obtain ⟨r, hr, heq⟩ := List.mem_map.mp h
  cases heq
  exact ⟨hr, rfl⟩

/-- A rule that was asked is one of those that answered. -/
theorem mem_asked {polled : List (FDRule ι α × Bool)} {rule : FDRule ι α} {answer : Option Bool}
    (h : (rule, answer) ∈ asked polled) : rule ∈ polled.map (·.1) := by
  rw [← map_fst_asked]
  exact List.mem_map_of_mem h

/-- A rule that waits for the poll has not said that it is not interested. -/
theorem mem_expected {polled : List (FDRule ι α × Bool)} {rule : FDRule ι α}
    {answer : Option Bool} (h : (rule, answer) ∈ expected polled) :
    rule ∈ polled.map (·.1) ∧ answer ≠ some false := by
  obtain ⟨⟨r, b⟩, hr, heq⟩ := List.mem_map.mp h
  cases heq
  refine ⟨List.mem_map_of_mem hr, ?_⟩
  cases b <;> nofun

/-- Who is waited for said so. -/
theorem mem_asked_of_expected {polled : List (FDRule ι α × Bool)} {rule : FDRule ι α}
    (h : (rule, some true) ∈ expected polled) : (rule, some true) ∈ asked polled := by
  obtain ⟨⟨r, b⟩, hr, heq⟩ := List.mem_map.mp h
  cases b <;> cases heq
  exact List.mem_map_of_mem hr

variable [DecidableEq ι] (kernel : Kernel ι)

/-- See if the descriptor is a socket, and what its error is. -/
def checkSocket (fd : ι) : SysM ι α PUnit := do
  match kernel.getsockopt (← FileDescriptor.call) fd with
  | .error e => if e = ENOTSOCK then return else throw (kernel.unixError "getsockopt" e)
  | .ok (_, optlen) =>
    if optlen ≠ 4 then
      throw (.runtimeError ("unexpected length from getsockopt: " ++ toString optlen))

/-- Go through what `poll` reports; the rules that are left. -/
def serve (loop : EventLoop ι α) :
    List (FDRule ι α × Bool) → List Revents → SysM ι α (List (FDRule ι α))
  | [], _ => return []
  | polled :: rest, reports => do
    let rule := polled.1
    let revents := reports.headD {}
    if revents.pollerr || revents.pollnval then
      checkSocket kernel rule.fd
      modify fun w => w.onFail rule.fd
      rule.error
      rule.cancel
      serve loop rest reports.tail
    else
      let events := (pollFd polled).events
      let pollReady := revents.ready events
      -- this descriptor is defunct: nothing more can be read, or it is only to be written
      if revents.pollhup && ((events.isSome && !pollReady) || rule.direction = .Out) then
        modify fun w => w.onHangUp rule.fd
        rule.cancel
        serve loop rest reports.tail
      else if pollReady then
        let countBefore := rule.serviceCount (← get)
        rule.callback
        let w ← get
        if countBefore = rule.serviceCount w ∧ (w.fds rule.fd).closed = false
            ∧ rule.interest w = true then
          throw (.runtimeError ("EventLoop: busy wait detected: rule \"" ++ loop.ruleName rule.1
            ++ "\" did not read/write fd and is still interested"))
        -- only serve one rule on each iteration
        return rule :: rest.map (·.1)
      else
        let rules ← serve loop rest reports.tail
        return rule :: rules

/-- One turn of the loop, with the loop after it. -/
def waitNextEvent (loop : EventLoop ι α) (timeoutMs : ℤ) :
    SysM ι α (Result × EventLoop ι α) := do
  -- first, the rules without descriptors
  let (nonFdRules, ruleFired) ← loop.serveBasicRules loop.nonFdRules
  let loop := { loop with nonFdRules }
  if ruleFired then return (.Success, loop)
  else
    let polled ← setUp loop.fdRules
    let loop := { loop with fdRules := polled.map (·.1) }
    -- quit if there is nothing left to poll
    if polled.any (·.2) = false then return (.Exit, loop)
    else
      match kernel.poll (← FileDescriptor.call) (polled.map pollFd) timeoutMs with
      | .error e => throw (kernel.unixError "poll" e)
      | .ok reports =>
        if reports.all Revents.isEmpty then return (.Timeout, loop)
        else
          let fdRules ← serve kernel loop polled reports
          return (.Success, { loop with fdRules })

/-! ### What a turn keeps -/

open ExceptState

omit [DecidableEq ι] in
/-- The check of a socket fails only when the kernel gives an unexpected answer. -/
theorem checkSocket_triple {kernel : Kernel ι} {fd : ι} {w : World ι α} :
    Triple (fun t => t = w) (checkSocket kernel fd : SysM ι α PUnit) (fun _ t => t = w.called)
      (fun _ t => t = w.called ∧ kernel.getsockopt w.calls fd ≠ .error ENOTSOCK ∧
        ∀ e, kernel.getsockopt w.calls fd ≠ .ok (e, 4)) := by
  refine FileDescriptor.call_triple ?_
  rintro w rfl
  cases hanswer : kernel.getsockopt w.calls fd with
  | error e =>
    refine .ite (fun _ => .pure _ fun _ ht => ht) fun hne => .throw _ fun t ht => ⟨ht, ?_, nofun⟩
    exact fun heq => hne (Except.error.inj heq)
  | ok p =>
    obtain ⟨e, optlen⟩ := p
    refine .ite (fun hne => .throw _ fun t ht => ⟨ht, nofun, fun e' heq => ?_⟩) fun _ =>
      .pure _ fun _ ht => ht
    cases heq
    exact hne rfl

/-- What the functions of the rules must keep during a turn, and leave after it; and what may be
    thrown. -/
structure Sound (nonFdRules : List (BasicRule ι α))
    (I : List (FDRule ι α × Option Bool) → World ι α → Prop)
    (J : List (FDRule ι α) → World ι α → Prop) (E : StdException → World ι α → Prop) : Prop where
  basic : ∀ rule ∈ nonFdRules, ∀ rules,
    Triple (fun w => I (unasked rules) w ∧ rule.interest w = true) rule.callback
      (fun _ => I (unasked rules)) E
  busy : ∀ rule ∈ nonFdRules, ∀ rules w, I (unasked rules) w → rule.interest w = true →
    ∀ what, E (.runtimeError what) w
  /-- A rule is cancelled externally. -/
  cancelled : ∀ before rule after w, I (asked before ++ (rule, none) :: unasked after) w →
    rule.id ∈ w.cancelRequested → I (asked before ++ unasked after) w
  defunct : ∀ before rule after,
    Triple (fun w => I (asked before ++ (rule, none) :: unasked after) w ∧ rule.Defunct w)
      rule.cancel (fun _ => I (asked before ++ unasked after)) E
  /-- A rule answers. -/
  answers : ∀ before rule after w, I (asked before ++ (rule, none) :: unasked after) w →
    ¬ rule.Defunct w → I (asked before ++ (rule, some (rule.interest w)) :: unasked after) w
  polls : ∀ polled w, I (asked polled) w → I (expected polled) w.called
  pollFails : ∀ polled w fds timeoutMs e, I (asked polled) w →
    kernel.poll w.calls fds timeoutMs = .error e → E (kernel.unixError "poll" e) w.called
  failed : ∀ before rule answer after,
    Triple (I (unasked before ++ (rule, answer) :: expected after))
      (do checkSocket kernel rule.fd; modify (·.onFail rule.fd); rule.error; rule.cancel)
      (fun _ => I (unasked before ++ expected after)) E
  hungUp : ∀ before rule answer after,
    Triple (I (unasked before ++ (rule, answer) :: expected after))
      (do modify (·.onHangUp rule.fd); rule.cancel)
      (fun _ => I (unasked before ++ expected after)) E
  /-- A rule is called back.  It must have serviced its descriptor, or not be interested. -/
  served : ∀ before rule after count,
    Triple (fun w => I (unasked before ++ (rule, some true) :: expected after) w ∧
        rule.serviceCount w = count) rule.callback
      (fun _ w => J (before ++ rule :: after.map (·.1)) w ∧
        (count = rule.serviceCount w → (w.fds rule.fd).closed = false → rule.interest w = true →
          ∀ what, E (.runtimeError what) w)) E
  /-- The turn ends, and the other answers are forgotten. -/
  ends : ∀ before after w, I (unasked before ++ expected after) w →
    J (before ++ after.map (·.1)) w
  /-- A rule that is not ready stays. -/
  skip : ∀ before rule answer after w, I (unasked before ++ (rule, answer) :: expected after) w →
    I (unasked before ++ (rule, none) :: expected after) w

namespace Sound

variable {kernel} {nonFdRules : List (BasicRule ι α)}
  {I : List (FDRule ι α × Option Bool) → World ι α → Prop}
  {J : List (FDRule ι α) → World ι α → Prop} {E : StdException → World ι α → Prop}

/-- Asking one of the rules without a descriptor as long as it is interested. -/
theorem serveBasicRule (h : Sound kernel nonFdRules I J E) {rule : BasicRule ι α}
    (hrule : rule ∈ nonFdRules) (name : String) (rules : List (FDRule ι α)) (n : ℕ) (fired : Bool) :
    Triple (I (unasked rules)) (EventLoop.serveBasicRule name rule n fired)
      (fun _ => I (unasked rules)) E := by
  induction n generalizing fired with
  | zero =>
    refine .get fun w hw => .check ?_ fun _ => .pure fired ?_
    · rintro hint _ rfl
      exact h.busy rule hrule rules _ hw hint _
    · rintro _ rfl
      exact hw
  | succ n ih =>
    refine .get fun w hw => .ite (fun hint => ?_) fun _ => .pure fired ?_
    · refine .bind ((h.basic rule hrule rules).pre ?_) fun _ => ih true
      rintro _ rfl
      exact ⟨hw, hint⟩
    · rintro _ rfl
      exact hw

/-- Asking the rules without a descriptor. -/
theorem serveBasicRules (h : Sound kernel nonFdRules I J E) (loop : EventLoop ι α)
    (rules : List (FDRule ι α)) {basic : List (BasicRule ι α)} (hbasic : basic ⊆ nonFdRules) :
    Triple (I (unasked rules)) (loop.serveBasicRules basic)
      (fun out w => out.1 ⊆ nonFdRules ∧ I (unasked rules) w) E := by
  induction basic with
  | nil => exact .pure ([], false) fun w hw => ⟨List.nil_subset _, hw⟩
  | cons rule basic ih =>
    obtain ⟨hrule, hrest⟩ := List.cons_subset.mp hbasic
    refine .get fun w hw => .ite (fun _ => (ih hrest).pre ?_) fun _ => ?_
    · rintro _ rfl
      exact hw
    refine .bind ((h.serveBasicRule hrule _ rules 128 false).pre ?_) fun fired => ?_
    · rintro _ rfl
      exact hw
    refine .ite (fun _ => .pure _ fun w hw => ⟨hbasic, hw⟩) fun _ => ?_
    exact .bind (ih hrest) fun out => .pure _ fun w hw => ⟨List.cons_subset.mpr ⟨hrule, hw.1⟩, hw.2⟩

/-- **Asking.**  The rules that are left have answered. -/
theorem setUp (h : Sound kernel nonFdRules I J E) (rules : List (FDRule ι α))
    (before : List (FDRule ι α × Bool)) :
    Triple (I (asked before ++ unasked rules)) (EventLoop.setUp rules)
      (fun polled w => I (asked (before ++ polled)) w) E := by
  induction rules generalizing before with
  | nil =>
    refine .pure [] fun w hw => ?_
    rw [List.append_nil]
    simpa [unasked] using hw
  | cons rule rules ih =>
    refine .get fun w hw => .ite (fun hcancel => (ih before).pre ?_) fun _ => .ite (fun hdone => ?_)
      fun hdone => ?_
    · rintro _ rfl
      exact h.cancelled before rule _ _ hw hcancel
    · refine .bind ((h.defunct before rule rules).pre ?_) fun _ => ih before
      rintro _ rfl
      exact ⟨hw, hdone⟩
    · refine .bind ((ih (before ++ [(rule, rule.interest w)])).pre ?_) fun polled =>
        .pure _ fun t ht => ?_
      · rintro _ rfl
        have hanswers := h.answers before rule _ _ hw hdone
        simpa [asked] using hanswers
      · rwa [List.append_assoc, List.singleton_append] at ht

/-- **Serving.** -/
theorem serve (h : Sound kernel nonFdRules I J E) (loop : EventLoop ι α)
    (polled : List (FDRule ι α × Bool)) (reports : List Revents) (before : List (FDRule ι α)) :
    Triple (I (unasked before ++ expected polled)) (EventLoop.serve kernel loop polled reports)
      (fun rules w => J (before ++ rules) w) E := by
  induction polled generalizing reports before with
  | nil => exact .pure [] fun w hw => h.ends before [] w hw
  | cons p polled ih =>
    obtain ⟨rule, answer⟩ := p
    refine .ite (fun _ => ?_) fun _ => .ite (fun _ => ?_) fun _ => .ite (fun hready => ?_)
      fun _ => ?_
    · have hfailed := (h.failed before rule (if answer then some true else none) polled).bind
        fun _ => ih reports.tail before
      simpa only [bind_assoc, expected, List.map_cons] using hfailed
    · have hhup := (h.hungUp before rule (if answer then some true else none) polled).bind
        fun _ => ih reports.tail before
      simpa only [bind_assoc, expected, List.map_cons] using hhup
    · -- only a rule that is interested can be ready
      have hanswer : answer = true := by
        cases answer with
        | true => rfl
        | false => cases hready
      subst hanswer
      refine .get fun w hw => .bind ((h.served before rule polled (rule.serviceCount w)).pre ?_)
        fun _ => .get fun t ht => .check ?_ fun _ => .pure _ ?_
      · rintro _ rfl
        exact ⟨hw, rfl⟩
      · rintro ⟨hcount, hopen, hint⟩ _ rfl
        exact ht.2 hcount hopen hint _
      · rintro _ rfl
        exact ht.1
    · refine .bind ((ih reports.tail (before ++ [rule])).pre ?_) fun rules => .pure _ fun t ht => ?_
      · intro t ht
        have hskip := h.skip before rule _ polled t ht
        simpa [unasked] using hskip
      · rwa [List.append_assoc, List.singleton_append] at ht

/-- **A turn of the loop** leaves what its rules leave; when it says that there is nothing to be
    polled, no rule that is left was interested. -/
theorem waitNextEvent {loop : EventLoop ι α} (h : Sound kernel loop.nonFdRules I J E)
    (timeoutMs : ℤ) :
    Triple (I (unasked loop.fdRules)) (loop.waitNextEvent kernel timeoutMs)
      (fun out w => out.2.nonFdRules ⊆ loop.nonFdRules ∧
        (out.1 ≠ .Exit → J out.2.fdRules w) ∧
        (out.1 = .Exit → I (asked (out.2.fdRules.map fun rule => (rule, false))) w)) E := by
  unfold EventLoop.waitNextEvent
  refine .bind (h.serveBasicRules loop loop.fdRules (List.Subset.refl _)) fun out => ?_
  obtain ⟨nonFdRules', fired⟩ := out
  refine .ite (fun _ => .pure _ fun w hw => ⟨hw.1, fun _ => ?_, fun hexit => by cases hexit⟩)
    fun _ => ?_
  · have hends := h.ends loop.fdRules [] w
    simp only [expected, List.map_nil, List.append_nil] at hends
    exact hends hw.2
  refine .bind (Q := fun polled w => nonFdRules' ⊆ loop.nonFdRules ∧ I (asked polled) w) ?_
    fun polled => .ite (fun hidle => .pure _ fun w hw => ⟨hw.1, fun hne => absurd rfl hne, ?_⟩)
      fun _ => FileDescriptor.call_triple fun w hw => ?_
  · refine .of_state fun w hw => ((h.setUp loop.fdRules []).pre ?_).post fun _ _ ht => ⟨hw.1, ht⟩
    rintro _ rfl
    exact hw.2
  · -- no answer was that of an interested rule
    intro _
    have hfalse : polled = (polled.map (·.1)).map fun rule => (rule, false) := by
      rw [List.map_map]
      refine (List.map_id polled).symm.trans (List.map_congr_left fun p hp => ?_)
      have hnot := List.any_eq_false.mp hidle p hp
      exact Prod.ext rfl (by simpa using hnot)
    exact hfalse ▸ hw.2
  · cases hpoll : kernel.poll w.calls (polled.map pollFd) timeoutMs with
    | error e =>
      refine .throw _ ?_
      rintro _ rfl
      exact h.pollFails polled w _ timeoutMs e hw.2 hpoll
    | ok reports =>
      have hpolls := h.polls polled w hw.2
      refine .ite (fun _ => .pure _ ?_) fun _ => .bind (Q := fun rules t =>
        nonFdRules' ⊆ loop.nonFdRules ∧ J rules t) ?_ fun rules => .pure _ fun t ht => ?_
      · rintro _ rfl
        exact ⟨hw.1, fun _ => h.ends [] polled _ hpolls, fun hexit => by cases hexit⟩
      · refine ((h.serve _ polled reports []).pre ?_).post fun rules t ht => ⟨hw.1, ht⟩
        rintro _ rfl
        exact hpolls
      · exact ⟨ht.1, fun _ => ht.2, fun hexit => by cases hexit⟩

end Sound

end EventLoop

end Minnow
