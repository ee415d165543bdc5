import Tighten.Proofs.CleanTree

/-
The protocol of an iteration, and what the counters count.

A campaign is seen through the tools that it calls and through what it shows the user.  An iteration
that gives an outcome spells one of a few words, and the outcome says which.  An iteration that ends
the campaign stops in the middle of such a word.  So what is seen of a campaign is word after word,
with a piece of one more word exactly when the campaign ended before its time.

The answers of the tools are kept next to the letters.  They decide which word it is, and the
counters are counts of them.
-/
namespace Tighten.Campaign

/-! ### Words -/

/-- What can be seen of a campaign. -/
inductive Letter where
  | reset
  | batch
  | test
  | format
  | commit
  | discard
  | status (outcome : Outcome)
deriving DecidableEq, Repr

/-- What is seen of an event, if anything. -/
def Event.letter? : Event → Option Letter
  | .called .reset _ => some .reset
  | .called .discard _ => some .discard
  | .called .test _ => some .test
  | .called .format _ => some .format
  | .called (.commit _) _ => some .commit
  | .showedBatch _ _ => some .batch
  | .showedStatus _ outcome => some (.status outcome)
  | .surveyed _ | .wrote _ _ _ | .logged _ => none

/-- The events that are seen. -/
def seen (events : List Event) : List Event :=
  events.filter fun e => e.letter?.isSome

/-- The letters of some events. -/
def spelled (events : List Event) : List Letter :=
  events.filterMap Event.letter?

/-- The letter for formatting, where that is asked for. -/
def formatLetters (format : Bool) : List Letter :=
  if format then [.format] else []

/-- The words of an iteration that gives an outcome. -/
def words (format : Bool) : Outcome → List (List Letter)
  | .passed => [[.reset, .batch, .test] ++ formatLetters format ++ [.commit, .status .passed]]
  | .failed => [[.reset, .batch, .test, .discard, .status .failed]]
  | .error => [
      [.reset, .batch, .discard, .status .error],
      [.reset, .batch, .test, .discard, .status .error],
      [.reset, .batch, .test] ++ formatLetters format ++ [.commit, .discard, .status .error]]

/-- A commit comes after a test that passed, and right after a test that failed comes a discard. -/
structure Ordered (events : List Event) : Prop where
  commitTested : ∀ before message r after, events = before ++ .called (.commit message) r :: after →
    .called .test (.ok .success) ∈ before
  failureDiscarded : ∀ before after, events = before ++ .called .test (.ok .failure) :: after →
    ∃ r rest, after = .called .discard r :: rest

/-- An iteration that gave an outcome. -/
structure Round where
  outcome : Outcome
  batch : List Candidate
  events : List Event

/-- What is seen of the iteration with a number is a word for its outcome. -/
structure Round.Complete (format : Bool) (number : Nat) (round : Round) : Prop where
  word : spelled round.events ∈ words format round.outcome
  shown : .showedBatch number round.batch ∈ round.events
  ordered : Ordered round.events

/-- A beginning of a word, with at least its first letter but not all of them. -/
structure Piece (format : Bool) (events : List Event) : Prop where
  nonempty : events ≠ []
  word : ∃ outcome, ∃ w ∈ words format outcome, spelled events <+: w ∧ spelled events ≠ w
  ordered : Ordered events

/-! ### What is seen of an iteration -/

/-- What is seen of the formatting. -/
inductive Formatting : Bool → List Event → Prop
  | off : Formatting false []
  | on (r : Except RunError Verdict) : Formatting true [.called .format r]

/-- What is seen of a batch that has passed the tests. -/
def tested (formatting : List Event) (message : String) (r : Except RunError Verdict) :
    List Event :=
  .called .test (.ok .success) :: formatting ++ [.called (.commit message) r]

/-- What is seen of a batch that is tried, and what comes of it. -/
inductive Trial (format : Bool) : Outcome → List Event → Prop
  | unwritten : Trial format .error []
  | untested (e : LaunchError) : Trial format .error [.called .test (.error (.launch e))]
  | failed : Trial format .failed [.called .test (.ok .failure)]
  | uncommitted {formatting : List Event} (h : Formatting format formatting) (message : String)
      {r : Except RunError Verdict} (hr : r ≠ .ok .success) :
      Trial format .error (tested formatting message r)
  | passed {formatting : List Event} (h : Formatting format formatting) (message : String) :
      Trial format .passed (tested formatting message (.ok .success))

/-- What is seen of a batch if the campaign ends while it is tried. -/
inductive Stuck (format : Bool) : List Event → Prop
  | unfit : Stuck format []
  | testing {r : Except RunError Verdict} (hr : ∀ v, r ≠ .ok v) : Stuck format [.called .test r]
  | formatting (hformat : format = true) (r : Except RunError Verdict) :
      Stuck format [.called .test (.ok .success), .called .format r]
  | committing {formatting : List Event} (h : Formatting format formatting) (message : String)
      {r : Except RunError Verdict} (hr : ∀ v, r ≠ .ok v) :
      Stuck format (tested formatting message r)

/-- What is seen before a batch is tried. -/
def opened (number : Nat) (batch : List Candidate) : List Event :=
  [.called .reset (.ok .success), .showedBatch number batch]

/-- What is seen after a batch has been tried. -/
def closed (number : Nat) (outcome : Outcome) : List Event :=
  if outcome = .passed then [.showedStatus number outcome]
  else [.called .discard (.ok .success), .showedStatus number outcome]

/-- What is seen of an iteration that gives an outcome. -/
inductive Whole (format : Bool) (number : Nat) : Round → Prop
  | intro {outcome : Outcome} {batch : List Candidate} {events : List Event}
      (h : Trial format outcome events) :
      Whole format number ⟨outcome, batch, opened number batch ++ events ++ closed number outcome⟩

/-- What is seen of an iteration that ends the campaign. -/
inductive Cut (format : Bool) (number : Nat) : List Event → Prop
  | unrestored {r : Except RunError Verdict} (hr : r ≠ .ok .success) :
      Cut format number [.called .reset r]
  | undrawn : Cut format number [.called .reset (.ok .success)]
  | stuck (batch : List Candidate) {events : List Event} (h : Stuck format events) :
      Cut format number (opened number batch ++ events)
  | undiscarded {outcome : Outcome} (batch : List Candidate) {events : List Event}
      (h : Trial format outcome events) (houtcome : outcome ≠ .passed)
      {r : Except RunError Verdict} (hr : r ≠ .ok .success) :
      Cut format number (opened number batch ++ events ++ [.called .discard r])

/-! ### Words from what is seen -/

section

variable {format : Bool} {number : Nat} {outcome : Outcome} {events : List Event}

@[simp] theorem spelled_nil : spelled [] = [] :=
  rfl

@[simp] theorem spelled_cons (e : Event) (events : List Event) :
    spelled (e :: events) = e.letter?.toList ++ spelled events := by
  unfold spelled
  cases h : e.letter? with
  | none => rw [List.filterMap_cons_none h]; rfl
  | some x => rw [List.filterMap_cons_some h]; rfl

@[simp] theorem spelled_append (a b : List Event) : spelled (a ++ b) = spelled a ++ spelled b :=
  List.filterMap_append

@[simp] theorem spelled_opened (batch : List Candidate) :
    spelled (opened number batch) = [.reset, .batch] :=
  rfl

theorem spelled_closed (number : Nat) (outcome : Outcome) : spelled (closed number outcome) =
    if outcome = .passed then [.status .passed] else [.discard, .status outcome] := by
  cases outcome <;> rfl

theorem Formatting.spelled_tested (h : Formatting format events) (message : String)
    (r : Except RunError Verdict) :
    spelled (tested events message r) = .test :: formatLetters format ++ [.commit] := by
  cases h <;> rfl

/-- The letters between the batch and the end of the iteration. -/
theorem Trial.spelled_eq (h : Trial format outcome events) :
    (outcome = .passed ∧ spelled events = .test :: formatLetters format ++ [.commit]) ∨
    (outcome = .failed ∧ spelled events = [.test]) ∨
    (outcome = .error ∧ spelled events ∈
      [[], [.test], .test :: formatLetters format ++ [.commit]]) := by
  cases h with
  | unwritten => simp
  | untested e => simp [Event.letter?]
  | failed => simp [Event.letter?]
  | uncommitted h message hr => simp [h.spelled_tested]
  | passed h message => simp [h.spelled_tested]

theorem Whole.word {round : Round} (h : Whole format number round) :
    spelled round.events ∈ words format round.outcome := by
  obtain ⟨htried⟩ := h
  rw [spelled_append, spelled_append, spelled_opened, spelled_closed]
  rcases htried.spelled_eq with ⟨rfl, heq⟩ | ⟨rfl, heq⟩ | ⟨rfl, hmem⟩
  · simp [heq, words]
  · simp [heq, words]
  · simp only [List.mem_cons, List.not_mem_nil, or_false] at hmem
    rcases hmem with heq | heq | heq <;> simp [heq, words]

/-- What misses the end of a word is a piece of it. -/
theorem proper_of_append (outcome : Outcome) {w : List Letter} (missing : List Letter)
    (hword : w ++ missing ∈ words format outcome) (hmissing : missing ≠ []) :
    ∃ outcome, ∃ w' ∈ words format outcome, w <+: w' ∧ w ≠ w' := by
  refine ⟨outcome, _, hword, List.prefix_append w missing, ?_⟩
  intro heq
  exact hmissing (List.self_eq_append_right.mp heq)

theorem Cut.word (h : Cut format number events) :
    ∃ outcome, ∃ w ∈ words format outcome, spelled events <+: w ∧ spelled events ≠ w := by
  have hreset : ∀ r, ∃ outcome, ∃ w ∈ words format outcome,
      spelled [.called .reset r] <+: w ∧ spelled [.called .reset r] ≠ w := by
    intro r
    exact proper_of_append .failed [.batch, .test, .discard, .status .failed]
      (by simp [words, Event.letter?]) (by simp)
  cases h with
  | unrestored hr => exact hreset _
  | undrawn => exact hreset _
  | stuck batch h =>
      cases h with
      | unfit =>
          exact proper_of_append .failed [.test, .discard, .status .failed]
            (by simp [words]) (by simp)
      | testing hr =>
          exact proper_of_append .failed [.discard, .status .failed]
            (by simp [words, Event.letter?]) (by simp)
      | formatting hformat r =>
          exact proper_of_append .passed [.commit, .status .passed]
            (by simp [words, Event.letter?, formatLetters, hformat]) (by simp)
      | committing h message hr =>
          exact proper_of_append .passed [.status .passed]
            (by simp [words, h.spelled_tested]) (by simp)
  | @undiscarded outcome batch events h houtcome r hr =>
      have hword := (show Whole format number ⟨outcome, batch, _⟩ from .intro h).word
      refine proper_of_append outcome [.status outcome] ?_ (by simp)
      rw [spelled_append, spelled_closed, if_neg houtcome] at hword
      rw [spelled_append, List.append_assoc]
      exact hword

/-! ### The order of commits, tests and discards -/

theorem ordered_of_quiet (hcommit : .commit ∉ spelled events)
    (hfailure : .called .test (.ok .failure) ∉ events) : Ordered events where
  commitTested before message r after heq := by
    refine absurd ?_ hcommit
    rw [heq]
    simp [Event.letter?]
  failureDiscarded before after heq := by
    refine absurd ?_ hfailure
    simp [heq]

theorem ordered_of_tested {front rest : List Event} (hcommit : .commit ∉ spelled front)
    (hfailure : .called .test (.ok .failure) ∉ front ++ rest) :
    Ordered (front ++ .called .test (.ok .success) :: rest) where
  commitTested before message r after heq := by
    rcases List.append_eq_append_iff.mp heq with ⟨more, rfl, hmore⟩ | ⟨more, rfl, hmore⟩
    · cases more with
      | nil => simp at hmore
      | cons e more =>
          obtain ⟨rfl, -⟩ := List.cons.inj hmore
          simp
    · cases more with
      | nil => simp at hmore
      | cons e more =>
          obtain ⟨rfl, -⟩ := List.cons.inj hmore
          simp [Event.letter?] at hcommit
  failureDiscarded before after heq := by
    have hmem : .called .test (.ok .failure) ∈ front ++ .called .test (.ok .success) :: rest := by
      simp [heq]
    refine absurd ?_ hfailure
    simpa using hmem

theorem ordered_of_failed {front rest : List Event} (r : Except RunError Verdict)
    (hcommit : .commit ∉ spelled front ++ spelled rest)
    (hfailure : .called .test (.ok .failure) ∉ front ++ rest) :
    Ordered (front ++ .called .test (.ok .failure) :: .called .discard r :: rest) where
  commitTested before message r after heq := by
    have hmem : .commit ∈ spelled (before ++ .called (.commit message) r :: after) := by
      simp [Event.letter?]
    rw [← heq] at hmem
    refine absurd ?_ hcommit
    simpa [Event.letter?] using hmem
  failureDiscarded before after heq := by
    rcases List.append_eq_append_iff.mp heq with ⟨more, rfl, hmore⟩ | ⟨more, rfl, hmore⟩
    · match more, hmore with
      | [], hmore =>
          obtain ⟨-, rfl⟩ := List.cons.inj hmore
          exact ⟨r, rest, rfl⟩
      | [e], hmore => simp at hmore
      | e :: e' :: more, hmore =>
          simp only [List.cons_append, List.cons.injEq] at hmore
          simp [hmore.2.2] at hfailure
    · cases more with
      | nil =>
          obtain ⟨-, rfl⟩ := List.cons.inj hmore
          exact ⟨r, rest, rfl⟩
      | cons e more =>
          obtain ⟨rfl, -⟩ := List.cons.inj hmore
          simp at hfailure

theorem Formatting.not_failure (h : Formatting format events) :
    .called .test (.ok .failure) ∉ events := by
  cases h <;> simp

theorem ordered_of_formatting {formatting : List Event} (h : Formatting format formatting)
    (batch : List Candidate) (message : String) (r : Except RunError Verdict) {rest : List Event}
    (hrest : .called .test (.ok .failure) ∉ rest) :
    Ordered (opened number batch ++ tested formatting message r ++ rest) := by
  rw [tested, List.append_assoc, List.append_assoc]
  refine ordered_of_tested (by simp) ?_
  simp [opened, h.not_failure, hrest]

/-- A batch that was tried is followed by a discard unless it has passed. -/
theorem Trial.ordered (h : Trial format outcome events) (batch : List Candidate)
    {tail : List Event} (hcommit : .commit ∉ spelled tail)
    (hfailure : .called .test (.ok .failure) ∉ tail)
    (hdiscard : outcome ≠ .passed → ∃ r rest, tail = .called .discard r :: rest) :
    Ordered (opened number batch ++ events ++ tail) := by
  cases h with
  | unwritten => exact ordered_of_quiet (by simp [hcommit]) (by simp [opened, hfailure])
  | untested e =>
      exact ordered_of_quiet (by simp [Event.letter?, hcommit]) (by simp [opened, hfailure])
  | failed =>
      obtain ⟨r, rest, rfl⟩ := hdiscard (by simp)
      rw [List.append_assoc]
      refine ordered_of_failed r ?_ ?_
      · simpa [Event.letter?] using hcommit
      · simpa [opened] using hfailure
  | uncommitted h message hr => exact ordered_of_formatting h batch message _ hfailure
  | passed h message => exact ordered_of_formatting h batch message _ hfailure

theorem Stuck.ordered (h : Stuck format events) (batch : List Candidate) :
    Ordered (opened number batch ++ events) := by
  cases h with
  | unfit => exact ordered_of_quiet (by simp) (by simp [opened])
  | testing hr =>
      refine ordered_of_quiet (by simp [Event.letter?]) ?_
      simpa [opened] using (hr .failure).symm
  | formatting hformat r => exact ordered_of_tested (by simp) (by simp [opened])
  | @committing _ h message r hr =>
      rw [← List.append_nil (opened number batch ++ tested _ message r)]
      exact ordered_of_formatting h batch message r List.not_mem_nil

theorem Whole.complete {round : Round} (h : Whole format number round) :
    round.Complete format number where
  word := h.word
  shown := by
    obtain ⟨-⟩ := h
    simp [opened]
  ordered := by
    obtain ⟨htried⟩ := h
    refine htried.ordered _ ?_ ?_ ?_
    · rw [spelled_closed]
      split <;> simp
    · unfold closed
      split <;> simp
    · intro houtcome
      rw [closed, if_neg houtcome]
      exact ⟨_, _, rfl⟩

theorem Cut.piece (h : Cut format number events) : Piece format events where
  nonempty := by
    cases h <;> simp [opened]
  word := h.word
  ordered := by
    cases h with
    | unrestored hr => exact ordered_of_quiet (by simp [Event.letter?]) (by simp)
    | undrawn => exact ordered_of_quiet (by simp [Event.letter?]) (by simp)
    | stuck batch h => exact h.ordered batch
    | undiscarded batch h houtcome hr =>
        exact h.ordered batch (by simp [Event.letter?]) (by simp) fun _ => ⟨_, [], rfl⟩

/-! ### Counts -/

/-- The user was shown what came of an iteration. -/
def Event.isStatus : Event → Bool
  | .showedStatus _ _ => true
  | _ => false

/-- A batch was committed. -/
def Event.isCommitted : Event → Bool
  | .called (.commit _) (.ok .success) => true
  | _ => false

theorem Formatting.counts (h : Formatting format events) (message : String)
    (r : Except RunError Verdict) :
    (tested events message r).countP Event.isStatus = 0 ∧
      (tested events message r).countP Event.isCommitted =
        [Event.called (.commit message) r].countP Event.isCommitted := by
  cases h with
  | off => exact ⟨rfl, rfl⟩
  | on r => exact ⟨rfl, rfl⟩

theorem countP_isCommitted_refused (message : String) {r : Except RunError Verdict}
    (hr : r ≠ .ok .success) : [Event.called (.commit message) r].countP Event.isCommitted = 0 := by
  refine List.countP_eq_zero.mpr fun e he hcommitted => ?_
  obtain rfl := List.mem_singleton.mp he
  unfold Event.isCommitted at hcommitted
  split at hcommitted
  · next heq => exact hr (Event.called.inj heq).2
  · cases hcommitted

theorem Trial.counts (h : Trial format outcome events) :
    events.countP Event.isStatus = 0 ∧
      events.countP Event.isCommitted = if outcome = .passed then 1 else 0 := by
  cases h with
  | unwritten => exact ⟨rfl, rfl⟩
  | untested e => exact ⟨rfl, rfl⟩
  | failed => exact ⟨rfl, rfl⟩
  | @uncommitted _ h message r hr =>
      obtain ⟨hstatus, hcommitted⟩ := h.counts message r
      exact ⟨hstatus, hcommitted.trans (countP_isCommitted_refused message hr)⟩
  | passed h message => exact h.counts message (.ok .success)

theorem Whole.counts {round : Round} (h : Whole format number round) :
    round.events.countP Event.isStatus = 1 ∧
      round.events.countP Event.isCommitted = if round.outcome = .passed then 1 else 0 := by
  obtain ⟨htried⟩ := h
  obtain ⟨hstatus, hcommitted⟩ := htried.counts
  rw [List.countP_append, List.countP_append, List.countP_append, List.countP_append, hstatus,
    hcommitted]
  unfold closed
  split <;> exact ⟨rfl, rfl⟩

theorem Cut.counts (h : Cut format number events) :
    events.countP Event.isStatus = 0 ∧ events.countP Event.isCommitted = 0 := by
  cases h with
  | unrestored hr => exact ⟨rfl, rfl⟩
  | undrawn => exact ⟨rfl, rfl⟩
  | stuck batch h =>
      cases h with
      | unfit => exact ⟨rfl, rfl⟩
      | testing hr => exact ⟨rfl, rfl⟩
      | formatting hformat r => exact ⟨rfl, rfl⟩
      | @committing _ h message r hr =>
          obtain ⟨hstatus, hcommitted⟩ := h.counts message r
          rw [countP_isCommitted_refused message (hr .success)] at hcommitted
          rw [List.countP_append, List.countP_append, hstatus, hcommitted]
          exact ⟨rfl, rfl⟩
  | undiscarded batch h houtcome hr =>
      obtain ⟨hstatus, hcommitted⟩ := h.counts
      rw [if_neg houtcome] at hcommitted
      simp [hstatus, hcommitted, opened, Event.isStatus, Event.isCommitted]

end

/-! ### The steps of an iteration -/

section

variable {σ ρ : Type}

/-- The campaign whose requests are recorded. -/
def Setup.recorded (c : Setup σ ρ) : Setup (σ × List Event) ρ :=
  ⟨c.crate, c.settings, c.parser, c.source, c.host.recorded⟩

/-- What has been seen, and the counters. -/
def Stands (events : List Event) (stats : Stats) (s : State (σ × List Event) ρ) : Prop :=
  seen s.host.2 = events ∧ s.stats = stats

variable {c : Setup σ ρ} {events : List Event} {stats : Stats} {s : State (σ × List Event) ρ}

theorem Stands.unseen (h : Stands events stats s) {host : σ × List Event} {e : Event}
    (hhost : host.2 = s.host.2 ++ [e]) (he : e.letter? = none) :
    Stands events stats { s with host } := by
  refine ⟨?_, h.2⟩
  have hseen : seen [e] = [] := by simp [seen, he]
  rw [hhost, seen, List.filter_append, ← seen, ← seen, hseen, h.1, List.append_nil]

theorem Stands.sees (h : Stands events stats s) {host : σ × List Event} {e : Event}
    (hhost : host.2 = s.host.2 ++ [e]) (he : e.letter?.isSome = true) :
    Stands (events ++ [e]) stats { s with host } := by
  refine ⟨?_, h.2⟩
  have hseen : seen [e] = [e] := by simp [seen, he]
  rw [hhost, seen, List.filter_append, ← seen, ← seen, hseen, h.1]

theorem enter_seen {E : Failure → State (σ × List Event) ρ → Prop} (phase : Phase) :
    Leads (Stands events stats) (enter phase) (fun _ => Stands events stats) E :=
  enter_leads fun _ hs => hs

theorem say_seen {E : Failure → State (σ × List Event) ρ → Prop} (level : LogLevel)
    (message : String) :
    Leads (Stands events stats) (say c.recorded level message) (fun _ => Stands events stats) E :=
  say_leads fun _ _ hs => hs.unseen rfl rfl

theorem call_sees {task : Task} {r : Except RunError Verdict} {host : σ × List Event}
    (h : Stands events stats s) (hcall : c.recorded.host.call task s.host = (r, host)) :
    Stands (events ++ [.called task r]) stats { s with host } := by
  obtain ⟨hr, rfl⟩ := Prod.mk.inj hcall
  refine h.sees ?_ (by cases task <;> rfl)
  rw [← hr]

/-- The answer that the campaign goes on with is the one that was seen. -/
theorem call_seen (task : Task) :
    Leads (Stands events stats) (call c.recorded task)
      (fun answer => Stands (events ++ [.called task (answer.mapError .launch)]) stats)
      (fun _ s => ∃ r, (∀ v, r ≠ .ok v) ∧ Stands (events ++ [.called task r]) stats s) := by
  refine call_leads fun s r host hs hcall => ?_
  have hstands := call_sees hs hcall
  cases r with
  | ok v => exact hstands
  | error e =>
      cases e with
      | launch e => exact hstands
      | _ => exact ⟨_, by simp, hstands⟩

theorem restore_seen (how : Restore) :
    Leads (Stands events stats) (restore c.recorded how)
      (fun _ => Stands (events ++ [.called how.task (.ok .success)]) stats)
      (fun _ s => ∃ r, r ≠ .ok .success ∧ Stands (events ++ [.called how.task r]) stats s) := by
  refine restore_leads ?_ ?_
  · intro s host hs hcall
    exact call_sees hs hcall
  · intro s r host e hs hcall hr
    exact ⟨r, hr, call_sees hs hcall⟩

theorem draw_seen :
    Leads (Stands events stats) (draw c.recorded) (fun _ => Stands events stats)
      (fun _ => Stands events stats) := by
  refine draw_leads (R := fun _ => Stands events stats) ?_ ?_ ?_ ?_
  · intro s hs
    exact hs.unseen rfl rfl
  · intro r s line hs
    exact hs.unseen rfl rfl
  · intro r batch s hs _
    exact hs
  · intro r e s hs _
    exact hs

theorem edit_seen (batch : List Candidate) :
    Leads (Stands events stats) (edit c.recorded batch) (fun _ => Stands events stats)
      (fun _ => Stands events stats) := by
  -- every write is recorded, and none is seen
  have hunseen : ∀ (s : State (σ × List Event) ρ) r host, Stands events stats s →
      Batch.apply c.recorded.host.write batch s.host = (r, host) →
      Stands events stats { s with host } := by
    intro s r host hs happly
    refine ⟨?_, hs.2⟩
    refine Batch.apply_keeps (K := fun t => seen t.2 = events) ?_ happly hs.1
    intro p bytes t ht
    exact (Stands.unseen (ρ := ρ) (s := { s with host := t }) ⟨ht, hs.2⟩ rfl rfl).1
  refine edit_leads ?_ ?_ ?_
  · intro s paths host hs happly
    exact hunseen s _ host hs happly
  · intro s e host hs happly
    exact hunseen s _ host hs happly
  · intro s e host hs happly
    exact hunseen s _ host hs happly

theorem format_seen :
    Leads (Stands events stats) (format c.recorded)
      (fun _ s => ∃ r, Stands (events ++ [.called .format r]) stats s)
      (fun _ s => ∃ r, Stands (events ++ [.called .format r]) stats s) := by
  refine Leads.bind ((call_seen .format).weaken (fun _ hs => hs) (fun _ _ hs => hs) ?_) ?_
  · rintro e s ⟨r, -, hs⟩
    exact ⟨r, hs⟩
  · intro answer
    have hsay : ∀ level message, Leads
        (Stands (events ++ [.called .format (answer.mapError .launch)]) stats)
        (say c.recorded level message)
        (fun _ s => ∃ r, Stands (events ++ [.called .format r]) stats s)
        (fun _ s => ∃ r, Stands (events ++ [.called .format r]) stats s) := by
      intro level message
      exact (say_seen level message).weaken (fun _ hs => hs) (fun _ _ hs => ⟨_, hs⟩)
        fun _ _ hs => hs
    cases answer with
    | error e => exact hsay _ _
    | ok v =>
        cases v with
        | success => exact Leads.pure fun _ hs => ⟨_, hs⟩
        | failure => exact hsay _ _

/-- Whether the batch was committed is what the tool reported. -/
theorem commit_seen :
    Leads (Stands events stats) (commit c.recorded)
      (fun done s => ∃ r, (done = true ↔ r = .ok .success) ∧
        Stands (events ++ [.called (.commit c.settings.commitMessage) r]) stats s)
      (fun _ s => ∃ r, (∀ v, r ≠ .ok v) ∧
        Stands (events ++ [.called (.commit c.settings.commitMessage) r]) stats s) := by
  refine Leads.bind (call_seen _) fun answer => ?_
  cases answer with
  | error e =>
      refine Leads.bind (say_seen _ _) fun _ => ?_
      exact Leads.pure fun _ hs => ⟨_, by simp, hs⟩
  | ok v =>
      cases v with
      | success => exact Leads.pure fun _ hs => ⟨_, by simp, hs⟩
      | failure =>
          refine Leads.bind (say_seen _ _) fun _ => ?_
          exact Leads.pure fun _ hs => ⟨_, by simp, hs⟩

/-- A batch that has passed the tests, and whether it is formatted. -/
theorem commit_trial {formatting : List Event} (h : Formatting c.settings.format formatting) :
    Leads (Stands (events ++ .called .test (.ok .success) :: formatting) stats)
      (do return if ← commit c.recorded then .passed else .error)
      (fun outcome s => ∃ new, Trial c.settings.format outcome new ∧
        Stands (events ++ new) stats s)
      (fun _ s => ∃ new, Stuck c.settings.format new ∧ Stands (events ++ new) stats s) := by
  refine Leads.bind (commit_seen.weaken (fun _ hs => hs) (fun _ _ hs => hs) ?_) ?_
  · rintro e s ⟨r, hr, hs⟩
    rw [List.append_assoc] at hs
    exact ⟨_, .committing h _ hr, hs⟩
  · intro done
    refine Leads.each fun r => Leads.given fun hdone => ?_
    rw [List.append_assoc]
    cases done with
    | true =>
        obtain rfl := hdone.mp rfl
        exact Leads.pure fun _ hs => ⟨_, .passed h _, hs⟩
    | false =>
        refine Leads.pure fun _ hs => ⟨_, .uncommitted h _ ?_, hs⟩
        intro heq
        cases hdone.mpr heq

theorem validate_seen :
    Leads (Stands events stats) (validate c.recorded)
      (fun outcome s => ∃ new, Trial c.settings.format outcome new ∧
        Stands (events ++ new) stats s)
      (fun _ s => ∃ new, Stuck c.settings.format new ∧ Stands (events ++ new) stats s) := by
  refine Leads.bind (enter_seen _) fun _ => ?_
  refine Leads.bind ((call_seen .test).weaken (fun _ hs => hs) (fun _ _ hs => hs) ?_) ?_
  · rintro e s ⟨r, hr, hs⟩
    exact ⟨_, .testing hr, hs⟩
  intro answer
  cases answer with
  | error e =>
      refine Leads.bind (say_seen _ _) fun _ => ?_
      exact Leads.pure fun _ hs => ⟨_, .untested e, hs⟩
  | ok v =>
      cases v with
      | failure => exact Leads.pure fun _ hs => ⟨_, .failed, hs⟩
      | success =>
          refine Leads.bind (enter_seen _) fun _ => ?_
          cases hformat : c.recorded.settings.format with
          | false =>
              have hformatting : Formatting c.settings.format [] := by
                rw [show c.settings.format = false from hformat]
                exact .off
              exact commit_trial hformatting
          | true =>
              refine Leads.bind (format_seen.weaken (fun _ hs => hs) (fun _ _ hs => hs) ?_) ?_
              · rintro e s ⟨r, hs⟩
                rw [List.append_assoc] at hs
                exact ⟨_, .formatting hformat r, hs⟩
              · intro _
                refine Leads.each fun r => ?_
                have hformatting : Formatting c.settings.format [.called .format r] := by
                  rw [show c.settings.format = true from hformat]
                  exact .on r
                rw [List.append_assoc]
                exact commit_trial hformatting

theorem attempt_seen (batch : List Candidate) :
    Leads (Stands events stats) (attempt c.recorded batch)
      (fun outcome s => ∃ new, Trial c.settings.format outcome new ∧
        Stands (events ++ new) stats s)
      (fun _ s => ∃ new, Stuck c.settings.format new ∧ Stands (events ++ new) stats s) := by
  refine Leads.bind (enter_seen _) fun _ => ?_
  refine Leads.bind ((edit_seen batch).weaken (fun _ hs => hs) (fun _ _ hs => hs) ?_) ?_
  · intro e s hs
    rw [← List.append_nil events] at hs
    exact ⟨[], .unfit, hs⟩
  intro answer
  cases answer with
  | ok _ => exact validate_seen
  | error e =>
      refine Leads.bind (say_seen _ _) fun _ => ?_
      refine Leads.pure fun s hs => ?_
      rw [← List.append_nil events] at hs
      exact ⟨[], .unwritten, hs⟩

variable {d : Display σ} (hdisplay : c.host.display = some d)

include hdisplay

theorem display_recorded : c.recorded.host.display = some d.recorded := by
  show c.host.display.map Display.recorded = _
  rw [hdisplay, Option.map_some]

theorem showStatus_seen {E : Failure → State (σ × List Event) ρ → Prop} (number : Nat)
    (outcome : Outcome) :
    Leads (fun s => Stands events stats s ∧ s.phase = .clean)
      (showStatus c.recorded number outcome)
      (fun _ s => Stands (events ++ [.showedStatus number outcome]) stats s ∧ s.phase = .clean)
      E := by
  unfold showStatus
  rw [display_recorded hdisplay]
  exact Leads.modify fun s hs => ⟨hs.1.sees rfl rfl, hs.2⟩

theorem finish_seen (number : Nat) (outcome : Outcome) (batch : List Candidate) :
    Leads (Stands events stats) (finish c.recorded number outcome batch)
      (fun o s => o = outcome ∧
        Stands (events ++ closed number outcome) (stats.count outcome batch.length) s ∧
        s.phase = .clean)
      (fun _ s => outcome ≠ .passed ∧
        ∃ r, r ≠ .ok .success ∧ Stands (events ++ [.called .discard r]) stats s) := by
  have hrest : ∀ events E, Leads (Stands events stats) (do
      enter .clean
      modify fun s => { s with stats := s.stats.count outcome batch.length }
      say c.recorded .debug s!"Iteration {number}: {outcome.name}"
      showStatus c.recorded number outcome
      return outcome)
      (fun o s => o = outcome ∧
        Stands (events ++ [.showedStatus number outcome]) (stats.count outcome batch.length) s ∧
        s.phase = .clean) E := by
    intro events E
    refine Leads.bind (R := fun _ s => Stands events stats s ∧ s.phase = .clean)
      (enter_leads fun s hs => ⟨hs, rfl⟩) fun _ => ?_
    refine Leads.bind (R := fun _ s => Stands events (stats.count outcome batch.length) s ∧
      s.phase = .clean) (Leads.modify fun s hs => ⟨⟨hs.1.1, by rw [hs.1.2]⟩, hs.2⟩) fun _ => ?_
    refine Leads.bind (R := fun _ s => Stands events (stats.count outcome batch.length) s ∧
      s.phase = .clean) (say_leads fun s line hs => ⟨hs.1.unseen rfl rfl, hs.2⟩) fun _ => ?_
    refine Leads.bind (showStatus_seen hdisplay number outcome) fun _ => ?_
    exact Leads.pure fun _ hs => ⟨rfl, hs⟩
  unfold finish closed
  by_cases houtcome : outcome = .passed
  · rw [if_neg (not_not.mpr houtcome), if_pos houtcome]
    exact hrest events _
  · rw [if_pos houtcome, if_neg houtcome]
    refine Leads.bind (enter_seen _) fun _ => ?_
    refine Leads.bind ((restore_seen .discard).weaken (fun _ hs => hs) (fun _ _ hs => hs) ?_) ?_
    · intro e s hs
      exact ⟨houtcome, hs⟩
    · intro _
      refine (hrest _ _).weaken (fun _ hs => hs) ?_ fun _ _ hs => hs
      intro o s hs
      rw [List.append_assoc] at hs
      exact hs

variable (hshows : ∀ n batch s, (d.batch n batch s).1 = .ok ())

include hshows

theorem showBatch_seen {E : Failure → State (σ × List Event) ρ → Prop} (number : Nat)
    (batch : List Candidate) :
    Leads (Stands events stats) (showBatch c.recorded number batch)
      (fun _ => Stands (events ++ [.showedBatch number batch]) stats) E := by
  unfold showBatch
  rw [display_recorded hdisplay]
  refine Leads.get fun s hs => ?_
  have hanswer : (d.recorded.batch number batch s.host).1 = .ok () :=
    hshows number batch s.host.1
  have hsees : Stands (events ++ [.showedBatch number batch]) stats
      { s with host := (d.recorded.batch number batch s.host).2 } := hs.sees rfl rfl
  cases hshown : d.recorded.batch number batch s.host with
  | mk r host =>
      rw [hshown] at hanswer hsees
      obtain rfl : r = .ok () := hanswer
      exact hsees

theorem iterate_seen :
    Leads (Stands events stats) (iterate c.recorded)
      (fun _ s => ∃ round, Whole c.settings.format (stats.iterations + 1) round ∧
        Stands (events ++ round.events) (stats.count round.outcome round.batch.length) s ∧
        s.phase = .clean)
      (fun _ s => ∃ new, Cut c.settings.format (stats.iterations + 1) new ∧
        Stands (events ++ new) stats s) := by
  refine Leads.get fun s hs => ?_
  rw [hs.2]
  generalize stats.iterations + 1 = number
  revert s
  show Leads (Stands events stats) _ _ _
  refine Leads.bind ((restore_seen .reset).weaken (fun _ hs => hs) (fun _ _ hs => hs) ?_) ?_
  · rintro e s ⟨r, hr, hs⟩
    exact ⟨_, .unrestored hr, hs⟩
  intro _
  refine Leads.bind (enter_seen _) fun _ => ?_
  refine Leads.bind (draw_seen.weaken (fun _ hs => hs) (fun _ _ hs => hs) ?_) fun batch => ?_
  · intro e s hs
    exact ⟨_, .undrawn, hs⟩
  refine Leads.bind (showBatch_seen hdisplay hshows number batch) fun _ => ?_
  rw [List.append_assoc]
  refine Leads.bind ((attempt_seen batch).weaken (fun _ hs => hs) (fun _ _ hs => hs) ?_) ?_
  · rintro e s ⟨new, hstuck, hs⟩
    rw [List.append_assoc] at hs
    exact ⟨_, .stuck batch hstuck, hs⟩
  intro outcome
  refine Leads.each fun new => Leads.given fun htrial => ?_
  refine (finish_seen hdisplay number outcome batch).weaken (fun _ hs => hs) ?_ ?_
  · rintro o s ⟨-, hs, hphase⟩
    rw [List.append_assoc, List.append_assoc, ← List.append_assoc _ new] at hs
    exact ⟨_, .intro htrial, hs, hphase⟩
  · rintro e s ⟨houtcome, r, hr, hs⟩
    rw [List.append_assoc, List.append_assoc, ← List.append_assoc _ new] at hs
    exact ⟨_, .undiscarded batch htrial houtcome hr, hs⟩

end

/-! ### Runs -/

/-- What the counters count, after some rounds and in some events. -/
structure Counted (stats : Stats) (done : List Round) (events : List Event) : Prop where
  outcomes : stats.iterations = stats.passed + stats.failed + stats.errors
  statuses : stats.iterations = events.countP Event.isStatus
  commits : stats.passed = events.countP Event.isCommitted
  sizes : stats.committed = ((done.filter (·.outcome = .passed)).map (·.batch.length)).sum

/-- The counters after some rounds. -/
def tally (stats : Stats) (done : List Round) : Stats :=
  done.foldl (fun stats round => stats.count round.outcome round.batch.length) stats

/-- Rounds with numbers that follow a number. -/
inductive Rounds (format : Bool) : Nat → List Round → Prop
  | nil (n : Nat) : Rounds format n []
  | cons {n : Nat} {round : Round} {done : List Round} (h : Whole format (n + 1) round)
      (hdone : Rounds format (n + 1) done) : Rounds format n (round :: done)

theorem count_iterations (stats : Stats) (outcome : Outcome) (size : Nat) :
    (stats.count outcome size).iterations = stats.iterations + 1 := by
  cases outcome <;> rfl

section

variable {σ ρ : Type} {c : Setup σ ρ} {d : Display σ}

theorem run_seen (hdisplay : c.host.display = some d)
    (hshows : ∀ n batch s, (d.batch n batch s).1 = .ok ()) (rounds : Nat) :
    ∀ events stats, Leads (fun s => Stands events stats s ∧ s.phase = .clean)
      (run c.recorded rounds)
      (fun _ s => ∃ done, Rounds c.settings.format stats.iterations done ∧
        Stands (events ++ done.flatMap Round.events) (tally stats done) s ∧ s.phase = .clean)
      (fun _ s => ∃ done number rest, Rounds c.settings.format stats.iterations done ∧
        Cut c.settings.format number rest ∧
        Stands (events ++ done.flatMap Round.events ++ rest) (tally stats done) s) := by
  induction rounds with
  | zero =>
      intro events stats
      refine Leads.get fun s hs => ?_
      refine ⟨[], .nil _, ?_⟩
      rw [List.flatMap_nil, List.append_nil]
      exact hs
  | succ rounds ih =>
      intro events stats
      refine Leads.get fun s hs => ?_
      split
      · refine (Leads.bind (P := Stands events stats) ((iterate_seen hdisplay hshows).weaken
          (fun _ hs => hs) (fun _ _ hs => hs) ?_) fun _ => ?_ : Leads _ _ _ _) s hs.1
        · rintro e t ⟨rest, hcut, ht⟩
          refine ⟨[], _, rest, .nil _, hcut, ?_⟩
          rw [List.flatMap_nil, List.append_nil]
          exact ht
        · refine Leads.each fun round => Leads.given fun hround => ?_
          refine (ih _ _).weaken (fun _ ht => ht) ?_ ?_
          · rintro _ t ⟨done, hdone, ht⟩
            rw [count_iterations] at hdone
            rw [List.append_assoc, ← List.flatMap_cons] at ht
            exact ⟨round :: done, .cons hround hdone, ht⟩
          · rintro e t ⟨done, number, rest, hdone, hcut, ht⟩
            rw [count_iterations] at hdone
            rw [List.append_assoc events, ← List.flatMap_cons] at ht
            exact ⟨round :: done, number, rest, .cons hround hdone, hcut, ht⟩
      · refine ⟨[], .nil _, ?_⟩
        rw [List.flatMap_nil, List.append_nil]
        exact hs

theorem Rounds.complete {format : Bool} {n : Nat} {done : List Round}
    (h : Rounds format n done) :
    ∀ i (round : Round), done[i]? = some round → round.Complete format (n + i + 1) := by
  induction h with
  | nil n => simp
  | @cons n round done h _ ih =>
      intro i round' hround
      cases i with
      | zero =>
          obtain rfl := Option.some.inj hround
          exact h.complete
      | succ i =>
          rw [List.getElem?_cons_succ] at hround
          have hcomplete := ih i round' hround
          rwa [show n + 1 + i + 1 = n + (i + 1) + 1 by omega] at hcomplete

/-- The counters count what is seen. -/
theorem Rounds.tally_eq {format : Bool} {n : Nat} {done : List Round} (h : Rounds format n done) :
    ∀ stats, (tally stats done).iterations =
        stats.iterations + (done.flatMap Round.events).countP Event.isStatus ∧
      (tally stats done).passed + (tally stats done).failed + (tally stats done).errors =
        stats.passed + stats.failed + stats.errors +
          (done.flatMap Round.events).countP Event.isStatus ∧
      (tally stats done).passed =
        stats.passed + (done.flatMap Round.events).countP Event.isCommitted ∧
      (tally stats done).committed = stats.committed +
        ((done.filter (·.outcome = .passed)).map (·.batch.length)).sum := by
  induction h with
  | nil n =>
      intro stats
      exact ⟨rfl, rfl, rfl, rfl⟩
  | @cons n round done h _ ih =>
      intro stats
      obtain ⟨hstatus, hcommitted⟩ := h.counts
      obtain ⟨hiterations, hsum, hpassed, hsize⟩ := ih (stats.count round.outcome round.batch.length)
      rw [tally, List.foldl_cons, ← tally, hiterations, hsum, hpassed, hsize, List.flatMap_cons,
        List.countP_append, List.countP_append, hstatus, hcommitted, List.filter_cons]
      cases round.outcome <;> simp [Stats.count] <;> omega

theorem countP_seen (p : Event → Bool) (h : ∀ e, p e = true → e.letter?.isSome = true)
    (events : List Event) : (seen events).countP p = events.countP p := by
  rw [seen, List.countP_filter]
  refine List.countP_congr fun e _ => ?_
  simp only [Bool.and_eq_true, and_iff_left_iff_imp]
  exact h e

/-- What ended a campaign counts for nothing. -/
theorem Rounds.counted {format : Bool} {done : List Round} (h : Rounds format 0 done)
    {rest : List Event} (hstatus : rest.countP Event.isStatus = 0)
    (hcommitted : rest.countP Event.isCommitted = 0) {s : State (σ × List Event) ρ}
    (hs : Stands (done.flatMap Round.events ++ rest) (tally {} done) s) :
    Counted s.stats done s.host.2 := by
  have hstatuses := countP_seen Event.isStatus (by intro e he; cases e <;> first | rfl | cases he)
    s.host.2
  have hcommits : (seen s.host.2).countP Event.isCommitted = s.host.2.countP Event.isCommitted := by
    refine countP_seen _ ?_ _
    intro e he
    unfold Event.isCommitted at he
    split at he
    · rfl
    · cases he
  obtain ⟨hiterations, hsum, hpassed, hsize⟩ := h.tally_eq {}
  rw [hs.1, List.countP_append, hstatus] at hstatuses
  rw [hs.1, List.countP_append, hcommitted] at hcommits
  rw [hs.2]
  refine ⟨?_, ?_, ?_, ?_⟩
  · exact hiterations.trans hsum.symm
  · rw [hiterations, ← hstatuses]
    exact Nat.zero_add _
  · rw [hpassed, ← hcommits]
    exact Nat.zero_add _
  · rw [hsize]
    exact Nat.zero_add _

/-- **What is seen of a campaign is word after word.**  From a fresh start and for any number of
rounds, whatever the tools and the files answer: the iterations that gave an outcome spell words for
these outcomes, and there is a piece of one more word exactly if the campaign ended before its time.
Otherwise the campaign stands between two iterations. -/
theorem run_protocol (hdisplay : c.host.display = some d)
    (hshows : ∀ n batch s, (d.batch n batch s).1 = .ok ()) (rounds : Nat)
    (s : State (σ × List Event) ρ) (hphase : s.phase = .clean) (hstats : s.stats = {})
    (hfresh : s.host.2 = []) {answer : Except Failure Bool} {s' : State (σ × List Event) ρ}
    (hrun : (run c.recorded rounds).run.run s = (answer, s')) :
    ∃ (done : List Round) (rest : List Event),
      seen s'.host.2 = done.flatMap Round.events ++ rest ∧
      (∀ i (round : Round), done[i]? = some round → round.Complete c.settings.format (i + 1)) ∧
      (match answer with
        | .ok _ => rest = [] ∧ s'.phase = .clean
        | .error _ => Piece c.settings.format rest) ∧
      Counted s'.stats done s'.host.2 := by
  have hstands : Stands [] {} s := ⟨by rw [hfresh]; rfl, hstats⟩
  have hleads := run_seen hdisplay hshows rounds [] {}
  have hnumbered : ∀ {done}, Rounds c.settings.format 0 done → ∀ i (round : Round),
      done[i]? = some round → round.Complete c.settings.format (i + 1) := by
    intro done hdone i round hround
    have hcomplete := hdone.complete i round hround
    rwa [Nat.zero_add] at hcomplete
  cases answer with
  | ok b =>
      obtain ⟨done, hdone, hs, hclean⟩ := hleads.ok ⟨hstands, hphase⟩ hrun
      rw [List.nil_append, ← List.append_nil (done.flatMap Round.events)] at hs
      exact ⟨done, [], hs.1, hnumbered hdone, ⟨rfl, hclean⟩, hdone.counted rfl rfl hs⟩
  | error e =>
      obtain ⟨done, number, rest, hdone, hcut, hs⟩ := hleads.error ⟨hstands, hphase⟩ hrun
      obtain ⟨hstatus, hcommitted⟩ := hcut.counts
      exact ⟨done, rest, hs.1, hnumbered hdone, hcut.piece, hdone.counted hstatus hcommitted hs⟩

end

/-- The campaign over the small crate, with a user who watches. -/
def watchedCampaign : Setup (Workspace × Workspace) Unit :=
  { smallCampaign with
    host := { repository with display := some ⟨fun _ _ s => (.ok (), s), fun _ _ s => s⟩ } }

/-- Its fresh start. -/
def watchedStart : State ((Workspace × Workspace) × List Event) Unit where
  random := ()
  host := ((Sampling.smallFiles, Sampling.smallFiles), [])

/-- Two batches pass; then there is nothing left to draw, and the last word is broken off. -/
theorem run_protocol_watchedCampaign :
    ∃ (e : Failure) (s' : State ((Workspace × Workspace) × List Event) Unit)
      (done : List Round) (rest : List Event),
      (run watchedCampaign.recorded 3).run.run watchedStart = (.error e, s') ∧
      s'.stats = ⟨2, 2, 0, 0, 2⟩ ∧ seen s'.host.2 = done.flatMap Round.events ++ rest ∧
      Piece true rest ∧ Counted s'.stats done s'.host.2 := by
  have heval : (((run watchedCampaign.recorded 3).run.run watchedStart).1.toOption,
      ((run watchedCampaign.recorded 3).run.run watchedStart).2.stats) =
      (none, ⟨2, 2, 0, 0, 2⟩) := by
    decide +kernel
  cases hrun : (run watchedCampaign.recorded 3).run.run watchedStart with
  | mk answer s' =>
      rw [hrun] at heval
      obtain ⟨hanswer, hstats⟩ := Prod.mk.inj heval
      obtain ⟨done, rest, hseen, -, hend, hcounted⟩ :=
        run_protocol rfl (fun _ _ _ => rfl) 3 watchedStart rfl rfl rfl hrun
      cases answer with
      | ok b => cases hanswer
      | error e => exact ⟨e, s', done, rest, rfl, hstats, hseen, hend, hcounted⟩

end Tighten.Campaign
