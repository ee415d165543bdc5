import Tighten.Proofs.World

/-
What a command does with its child.

A command asks for a fixed sequence of things, whatever it is answered.  It looks at the token, says
what it runs and starts a child.  Then it goes round: a look at the token, a short wait.  The rounds
end in one of three ways.  The child has exited; or the token is set, and the child is stopped; or
the looks are used up.  `Course` says this once, and everything else here is read off it.

Only one thing is not a matter of the sequence alone, namely when the token is set.  A short wait
comes right after a look that found the token not set.  So a wait that begins with the token set is
followed by a look that finds it set, and there is no other wait.
-/
namespace Tighten.Campaign

open Child (Terminator Pid Launch)

/-! ### The sequence of requests -/

/-- The requests with which a child is stopped, and what comes of it. -/
inductive Stopping (pid : Pid) : Terminator → List Child.Event → Except TerminateError Unit → Prop
  | groupStopped (status : Int) :
      Stopping pid .group [.stoppedGroup pid none, .waited pid status] (.ok ())
  | groupGone : Stopping pid .group [.stoppedGroup pid (some .noProcess)] (.ok ())
  | groupRefused {e : Errno} (h : e ≠ .noProcess) :
      Stopping pid .group [.stoppedGroup pid (some e)] (.error ⟨pid, e⟩)
  | stopped (status : Int) : Stopping pid .native [.stopped pid none, .waited pid status] (.ok ())
  | exited (e : Errno) (status : Int) :
      Stopping pid .native [.stopped pid (some e), .asked pid (some status)] (.ok ())
  | refused (e : Errno) :
      Stopping pid .native [.stopped pid (some e), .asked pid none] (.error ⟨pid, e⟩)

/-- What a command answers whose child was to be stopped. -/
def stopAnswer : Except TerminateError Unit → RunError
  | .ok () => .cancelled
  | .error e => .terminate e

/-- Rounds in which the token is not set and the child does not exit. -/
def rounds (pid : Pid) (k : Nat) : List Child.Event :=
  (List.replicate k [.looked .poll false, .waitedBriefly pid none]).flatten

/-- The requests of the last round. -/
inductive LastRound (t : Terminator) (pid : Pid) :
    List Child.Event → Except RunError Int → Prop
  | exited (status : Int) :
      LastRound t pid [.looked .poll false, .waitedBriefly pid (some status)] (.ok status)
  | stopped (line : LogLine) {events : List Child.Event} {answer : Except TerminateError Unit}
      (h : Stopping pid t events answer) :
      LastRound t pid (.looked .poll true :: .logged line :: events) (.error (stopAnswer answer))

/-- The requests with which a child is watched, `looks` times at most. -/
inductive Watching (t : Terminator) (pid : Pid) (looks : Nat) :
    List Child.Event → Except RunError Int → Prop
  | unfinished : Watching t pid looks (rounds pid looks) (.error .unfinished)
  | finished {k : Nat} {last : List Child.Event} {answer : Except RunError Int} (hk : k < looks)
      (h : LastRound t pid last answer) : Watching t pid looks (rounds pid k ++ last) answer

/-- The requests up to the start of a child. -/
def opening (t : Terminator) (command : Command) (directory : String) (line : LogLine)
    (result : Except OsError Pid) : List Child.Event :=
  [.looked .entry false, .logged line,
    .started ⟨command, directory, t.newSession, .null, .inherited, .output⟩ result]

/-- The requests of a command. -/
inductive Course (t : Terminator) (looks : Nat) (command : Command) (directory : String) :
    List Child.Event → Except RunError Verdict → Prop
  | refused : Course t looks command directory [.looked .entry true] (.error .cancelled)
  | unlaunched (line : LogLine) (e : OsError) :
      Course t looks command directory (opening t command directory line (.error e))
        (.error (.launch ⟨command.argv, e.message⟩))
  | stopped (line : LogLine) (pid : Pid) {events : List Child.Event} {e : RunError}
      (h : Watching t pid looks events (.error e)) :
      Course t looks command directory (opening t command directory line (.ok pid) ++ events)
        (.error e)
  | exited (line : LogLine) (pid : Pid) {events : List Child.Event} {status : Int}
      (remarks : List LogLine) (h : Watching t pid looks events (.ok status)) :
      Course t looks command directory
        (opening t command directory line (.ok pid) ++ events ++ remarks.map .logged)
        (.ok (.ofStatus status))

/-! ### The sequence as it happens -/

variable {τ : Type} {o : Outside τ} {w w' w'' : World τ}

/-- A short wait that begins with the token set. -/
def Moment.isLateWait (x : Moment) : Bool :=
  match x.act with
  | .child (.waitedBriefly _ _) => x.before
  | _ => false

/-- The number of short waits that begin with the token set. -/
def lateWaits (moments : List Moment) : Nat :=
  moments.countP Moment.isLateWait

/-- A later state, with the requests in between that whoever runs commands has made.  At most one of
them is a short wait begun with the token set, and none if the token is set from the start. -/
def World.Asks (w w' : World τ) (events : List Child.Event) : Prop :=
  ∃ more, w.Later w' more ∧ more.map Moment.act = events.map Act.child ∧
    lateWaits more ≤ if w.token.cancelled then 0 else 1

namespace World.Asks

theorem refl (w : World τ) : w.Asks w [] :=
  ⟨[], .refl w, rfl, Nat.zero_le _⟩

theorem trans {events events' : List Child.Event} (h : w.Asks w' events)
    (h' : w'.Asks w'' events') : w.Asks w'' (events ++ events') := by
  obtain ⟨more, hlater, hacts, hlate⟩ := h
  obtain ⟨more', hlater', hacts', hlate'⟩ := h'
  refine ⟨more ++ more', hlater.trans hlater', ?_, ?_⟩
  · rw [List.map_append, List.map_append, hacts, hacts']
  · -- a late wait has seen the token set, so what follows it starts with the token set
    have hset : 0 < lateWaits more → w'.token.cancelled = true := by
      intro hpos
      obtain ⟨x, hx, hwait⟩ := List.countP_pos_iff.mp hpos
      refine hlater.known x hx (Or.inl ?_)
      unfold Moment.isLateWait at hwait
      split at hwait
      · exact hwait
      · cases hwait
    have hsum : lateWaits (more ++ more') = lateWaits more + lateWaits more' :=
      List.countP_append
    cases hw : w.token.cancelled with
    | true =>
        rw [hw] at hlate
        rw [hlater.sticky hw] at hlate'
        simp only [if_true] at hlate hlate' ⊢
        omega
    | false =>
        rw [hw] at hlate
        simp only [Bool.false_eq_true, if_false] at hlate ⊢
        by_cases hpos : 0 < lateWaits more
        · rw [hset hpos] at hlate'
          simp only [if_true] at hlate'
          omega
        · have hle : lateWaits more' ≤ 1 := by
            refine Nat.le_trans hlate' ?_
            split <;> omega
          omega

/-- A request that is no short wait. -/
theorem did {event : Child.Event} (outside : τ)
    (h : ∀ pid status, event ≠ .waitedBriefly pid status) :
    w.Asks (w.did o (.child event) outside) [event] := by
  refine ⟨_, did_later _ _, rfl, ?_⟩
  have hzero : lateWaits [w.moment o (.child event) outside] = 0 := by
    refine List.countP_eq_zero.mpr fun x hx hwait => ?_
    obtain rfl := List.mem_singleton.mp hx
    cases event with
    | waitedBriefly pid status => exact h pid status rfl
    | _ => cases hwait
  rw [hzero]
  exact Nat.zero_le _

/-- A look that finds the token not set, and the short wait after it. -/
theorem look_wait (pid : Pid) (hset : w.token.cancelled = false) {w₁ w₂ : World τ}
    {status : Option Int} (hlook : o.platform.isCancelled .poll w = (false, w₁))
    (hwait : o.platform.waitBriefly pid w₁ = (status, w₂)) :
    w.Asks w₂ [.looked .poll false, .waitedBriefly pid status] := by
  obtain ⟨hanswer, rfl⟩ := Prod.mk.inj hlook
  obtain ⟨hstatus, rfl⟩ := Prod.mk.inj hwait
  refine ⟨_, (did_later _ _).trans (did_later _ _), ?_, ?_⟩
  · rw [← hanswer, ← hstatus]
    rfl
  · rw [hset]
    have hsecond : ∀ x y : Moment, x.isLateWait = false → lateWaits ([x] ++ [y]) ≤ 1 := by
      intro x y hx
      have hlength : lateWaits [y] ≤ 1 := List.countP_le_length
      rw [lateWaits, List.singleton_append, List.countP_cons_of_neg (by simp [hx])]
      exact hlength
    exact hsecond _ _ rfl

end World.Asks

namespace Outside

open World (Asks)

variable (o) (t : Terminator) (pid : Pid)

theorem terminate_asks (w : World τ) :
    ∃ events, w.Asks (t.terminate o.platform pid w).2 events ∧
      Stopping pid t events (t.terminate o.platform pid w).1 := by
  have hwait : ∀ w : World τ, w.Asks (o.platform.wait pid w).2
      [.waited pid (o.platform.wait pid w).1] := fun w => .did _ fun _ _ => Child.Event.noConfusion
  cases t with
  | group =>
      have hstop : w.Asks (o.platform.stopGroup pid w).2
          [.stoppedGroup pid (o.platform.stopGroup pid w).1] :=
        .did _ fun _ _ => Child.Event.noConfusion
      unfold Terminator.terminate
      dsimp only
      split
      · next w₁ h =>
          rw [h] at hstop
          exact ⟨_, hstop.trans (hwait w₁), .groupStopped _⟩
      · next w₁ h =>
          rw [h] at hstop
          exact ⟨_, hstop, .groupGone⟩
      · next e w₁ hne h =>
          rw [h] at hstop
          exact ⟨_, hstop, .groupRefused fun heq => hne (by rw [heq])⟩
  | native =>
      have hstop : w.Asks (o.platform.stop pid w).2 [.stopped pid (o.platform.stop pid w).1] :=
        .did _ fun _ _ => Child.Event.noConfusion
      unfold Terminator.terminate
      dsimp only
      split
      · next w₁ h =>
          rw [h] at hstop
          exact ⟨_, hstop.trans (hwait w₁), .stopped _⟩
      · next e w₁ h =>
          rw [h] at hstop
          have hasked : w₁.Asks (o.platform.exited? pid w₁).2
              [.asked pid (o.platform.exited? pid w₁).1] :=
            .did _ fun _ _ => Child.Event.noConfusion
          split
          · next status w₂ h' =>
              rw [h'] at hasked
              exact ⟨_, hstop.trans hasked, .exited e status⟩
          · next w₂ h' =>
              rw [h'] at hasked
              exact ⟨_, hstop.trans hasked, .refused e⟩

theorem watch_asks (program : String) (looks : Nat) :
    ∀ w : World τ, ∃ events, w.Asks (Child.watch t o.platform program pid looks w).2 events ∧
      Watching t pid looks events (Child.watch t o.platform program pid looks w).1 := by
  induction looks with
  | zero => exact fun w => ⟨[], .refl w, .unfinished⟩
  | succ looks ih =>
      intro w
      unfold Child.watch
      split
      · next w₁ h =>
          have hlook : w.Asks w₁ [.looked .poll true] := by
            obtain ⟨hanswer, rfl⟩ := Prod.mk.inj h
            rw [← hanswer]
            exact .did _ fun _ _ => Child.Event.noConfusion
          dsimp only
          generalize Child.detail _ = line
          have hlog : w₁.Asks (o.platform.log line w₁) [.logged line] :=
            .did _ fun _ _ => Child.Event.noConfusion
          obtain ⟨events, hstop, hstopping⟩ := terminate_asks o t pid (o.platform.log line w₁)
          have hlast := LastRound.stopped line hstopping
          have hasks := (hlook.trans hlog).trans hstop
          have hfinished := Watching.finished (Nat.succ_pos looks) hlast
          split
          · next w₂ h' =>
              rw [h'] at hasks hfinished
              exact ⟨_, hasks, hfinished⟩
          · next e w₂ h' =>
              rw [h'] at hasks hfinished
              exact ⟨_, hasks, hfinished⟩
      · next w₁ h =>
          have hset : w.token.cancelled = false := (Prod.mk.inj h).1
          split
          · next status w₂ h' =>
              exact ⟨_, .look_wait pid hset h h', .finished (Nat.succ_pos looks) (.exited status)⟩
          · next w₂ h' =>
              obtain ⟨events, hrest, hwatching⟩ := ih w₂
              refine ⟨_, (World.Asks.look_wait pid hset h h').trans hrest, ?_⟩
              generalize (Child.watch t o.platform program pid looks w₂).1 = answer at hwatching ⊢
              cases hwatching with
              | unfinished => exact .unfinished
              | finished hk hlast => exact .finished (Nat.succ_lt_succ hk) hlast

theorem run_asks (looks : Nat) (command : Command) (directory : String) (w : World τ) :
    ∃ events, w.Asks (Child.run t o.platform looks command directory w).2 events ∧
      Course t looks command directory events
        (Child.run t o.platform looks command directory w).1 ∧
      (w.token.cancelled = true → events = [.looked .entry true]) := by
  unfold Child.run
  split
  · next w₁ h =>
      obtain ⟨hanswer, rfl⟩ := Prod.mk.inj h
      refine ⟨[.looked .entry true], ?_, .refused, fun _ => rfl⟩
      rw [← hanswer]
      exact .did _ fun _ _ => Child.Event.noConfusion
  · next w₁ h =>
      have hunset : w.token.cancelled ≠ true := by
        rw [show w.token.cancelled = false from (Prod.mk.inj h).1]
        exact Bool.false_ne_true
      have hlook : w.Asks w₁ [.looked .entry false] := by
        obtain ⟨hanswer, rfl⟩ := Prod.mk.inj h
        rw [← hanswer]
        exact .did _ fun _ _ => Child.Event.noConfusion
      dsimp only
      generalize Child.detail _ = line
      have hlog : w₁.Asks (o.platform.log line w₁) [.logged line] :=
        .did _ fun _ _ => Child.Event.noConfusion
      generalize o.platform.log line w₁ = w₂ at hlog
      have hstart : ∀ launch, w₂.Asks (o.platform.start launch w₂).2
          [.started launch (o.platform.start launch w₂).1] :=
        fun _ => .did _ fun _ _ => Child.Event.noConfusion
      specialize hstart ⟨command, directory, t.newSession, .null, .inherited, .output⟩
      have hopening := (hlook.trans hlog).trans hstart
      split
      · next e w₃ h' =>
          rw [h'] at hopening
          exact ⟨_, hopening, .unlaunched line e, fun hset => absurd hset hunset⟩
      · next pid w₃ h' =>
          rw [h'] at hopening
          obtain ⟨events, hwatch, hwatching⟩ := watch_asks o t pid command.program looks w₃
          split
          · next e w₄ hanswer =>
              rw [hanswer] at hwatch hwatching
              exact ⟨_, hopening.trans hwatch, .stopped line pid hwatching,
                fun hset => absurd hset hunset⟩
          · next status w₄ hanswer =>
              rw [hanswer] at hwatch hwatching
              dsimp only
              split
              · refine ⟨_, hopening.trans hwatch, ?_, fun hset => absurd hset hunset⟩
                have hexited : Course t looks command directory _ _ :=
                  .exited line pid [] hwatching
                rwa [List.map_nil, List.append_nil] at hexited
              · next hstatus =>
                  generalize Child.detail _ = remark
                  have hremark : w₄.Asks (o.platform.log remark w₄) [.logged remark] :=
                    .did _ fun _ _ => Child.Event.noConfusion
                  exact ⟨_, (hopening.trans hwatch).trans hremark,
                    .exited line pid [remark] hwatching, fun hset => absurd hset hunset⟩

end Outside

/-! ### What follows from the sequence -/

/-- A request to stop a child. -/
def stops : Child.Event → Bool
  | .stoppedGroup _ _ => true
  | .stopped _ _ => true
  | _ => false

/-- A short wait in which the child does not exit. -/
def timesOut : Child.Event → Bool
  | .waitedBriefly _ none => true
  | _ => false

/-- What is promised of the requests of a command and of its answer. -/
structure Supervised (command : Command) (looks : Nat) (events : List Child.Event)
    (answer : Except RunError Verdict) : Prop where
  /-- A verdict is that on the child's own exit, collected by a short wait, and nobody stopped the
  child. -/
  verdict : ∀ v, answer = .ok v → (∀ x ∈ events, stops x = false) ∧
    ∃ launch pid status, .started launch (.ok pid) ∈ events ∧
      .waitedBriefly pid (some status) ∈ events ∧ (v = .success ↔ status = 0)
  stopsOnce : events.countP stops ≤ 1
  /-- To stop the child takes a look that has found the token set. -/
  stopsSeen : ∀ before x after, events = before ++ x :: after → stops x = true →
    .looked .poll true ∈ before
  stopsLast : ∀ x ∈ events, stops x = true →
    answer = .error .cancelled ∨ ∃ e, answer = .error (.terminate e)
  /-- A command that was started counts as cancelled only when its child is gone. -/
  collected : answer = .error .cancelled → ∀ launch pid, .started launch (.ok pid) ∈ events →
    (∃ status, .waited pid status ∈ events) ∨ (∃ status, .asked pid (some status) ∈ events) ∨
      .stoppedGroup pid (some .noProcess) ∈ events
  /-- A refusal to stop the child's group is an error, unless there is no such group. -/
  groupRefused : ∀ pid e, .stoppedGroup pid (some e) ∈ events → e ≠ .noProcess →
    answer = .error (.terminate ⟨pid, e⟩)
  /-- A refusal to stop the child alone is an error, unless the child has exited. -/
  refused : ∀ pid e, .stopped pid (some e) ∈ events → .asked pid none ∈ events →
    answer = .error (.terminate ⟨pid, e⟩)
  /-- Nothing but a failure to start a child is answered as one. -/
  launch : ∀ e, answer = .error (.launch e) ↔ ∃ launch reason,
    .started launch (.error reason) ∈ events ∧ e = ⟨command.argv, reason.message⟩
  /-- A child is left running only after as many short waits as there may be looks. -/
  unfinished : answer = .error .unfinished → events.countP timesOut = looks

namespace Supervised

variable {command : Command} {looks : Nat} {events : List Child.Event}
  {answer : Except RunError Verdict}

/-- Where nothing is stopped, little has to be shown. -/
theorem of_quiet (hquiet : ∀ x ∈ events, stops x = false)
    (hverdict : ∀ v, answer = .ok v → ∃ launch pid status, .started launch (.ok pid) ∈ events ∧
      .waitedBriefly pid (some status) ∈ events ∧ (v = .success ↔ status = 0))
    (hcancelled : answer = .error .cancelled → ∀ launch pid, .started launch (.ok pid) ∉ events)
    (hlaunch : ∀ e, answer = .error (.launch e) ↔ ∃ launch reason,
      .started launch (.error reason) ∈ events ∧ e = ⟨command.argv, reason.message⟩)
    (hunfinished : answer = .error .unfinished → events.countP timesOut = looks) :
    Supervised command looks events answer where
  verdict v hv := ⟨hquiet, hverdict v hv⟩
  stopsOnce := by
    rw [List.countP_eq_zero.mpr fun x hx => by simp [hquiet x hx]]
    exact Nat.zero_le 1
  stopsSeen before x after heq hx := by
    have hmem : x ∈ events := by simp [heq]
    rw [hquiet x hmem] at hx
    cases hx
  stopsLast x hx hstops := by
    rw [hquiet x hx] at hstops
    cases hstops
  collected hanswer launch pid hstarted := absurd hstarted (hcancelled hanswer launch pid)
  groupRefused pid e he := nomatch hquiet _ he
  refused pid e he := nomatch hquiet _ he
  launch := hlaunch
  unfinished := hunfinished

/-- The requests that stop a child begin with the one request to stop it. -/
theorem stopping_head {t : Terminator} {pid : Pid} {stopping : List Child.Event}
    {r : Except TerminateError Unit} (h : Stopping pid t stopping r) :
    ∃ x rest, stopping = x :: rest ∧ stops x = true ∧ ∀ y ∈ rest, stops y = false := by
  cases h <;> exact ⟨_, _, rfl, rfl, by simp [stops]⟩

/-- Where the child is stopped, it is stopped in the end, after a look that has found the token
set. -/
theorem of_stopping {t : Terminator} {pid : Pid} {front stopping : List Child.Event}
    {r : Except TerminateError Unit} (line : LogLine) (h : Stopping pid t stopping r)
    (hfront : ∀ x ∈ front, stops x = false)
    (hstarted : ∀ launch result, .started launch result ∈ front → result = .ok pid)
    (hasked : ∀ pid status, .asked pid status ∉ front) :
    Supervised command looks (front ++ .looked .poll true :: .logged line :: stopping)
      (.error (stopAnswer r)) where
  verdict v hv := nomatch hv
  stopsOnce := by
    obtain ⟨x, rest, rfl, hx, hrest⟩ := stopping_head h
    have hnone : ∀ {ys : List Child.Event}, (∀ y ∈ ys, stops y = false) → ys.countP stops = 0 :=
      fun hys => List.countP_eq_zero.mpr fun y hy => by simp [hys y hy]
    have hlook : stops (.looked .poll true) = false := rfl
    have hline : stops (.logged line) = false := rfl
    simp [List.countP_append, hnone hfront, hnone hrest, hx, hlook, hline]
  stopsSeen before x after heq hx := by
    obtain ⟨y, rest, rfl, -, hrest⟩ := stopping_head h
    rcases List.append_eq_append_iff.mp heq with ⟨more, rfl, hmore⟩ | ⟨more, rfl, hmore⟩
    · -- the request to stop comes after the look and the remark
      match more, hmore with
      | [], hmore =>
          obtain ⟨rfl, -⟩ := List.cons.inj hmore
          cases hx
      | look :: more, hmore =>
          obtain ⟨rfl, -⟩ := List.cons.inj hmore
          simp
    · have hxmem : x ∈ before ++ more ∨ x ∈ [Child.Event.looked .poll true] := by
        cases more with
        | nil => exact Or.inr (List.mem_singleton.mpr (List.cons.inj hmore).1)
        | cons z more =>
            obtain ⟨rfl, -⟩ := List.cons.inj hmore
            simp
      rcases hxmem with hxmem | hxmem
      · rw [hfront x hxmem] at hx
        cases hx
      · obtain rfl := List.mem_singleton.mp hxmem
        cases hx
  stopsLast x hx hstops := by
    cases r with
    | ok _ => exact Or.inl rfl
    | error e => exact Or.inr ⟨e, rfl⟩
  collected hanswer launch pid' hmem := by
    have hpid : pid' = pid := by
      rcases List.mem_append.mp hmem with hmem | hmem
      · exact Except.ok.inj (hstarted _ _ hmem)
      · cases h <;> simp at hmem
    subst hpid
    cases h with
    | groupStopped status => exact Or.inl ⟨status, by simp⟩
    | groupGone => exact Or.inr (Or.inr (by simp))
    | groupRefused => cases hanswer
    | stopped status => exact Or.inl ⟨status, by simp⟩
    | exited e status => exact Or.inr (Or.inl ⟨status, by simp⟩)
    | refused e => cases hanswer
  groupRefused pid' e hmem hne := by
    rcases List.mem_append.mp hmem with hmem | hmem
    · exact nomatch hfront _ hmem
    · cases h with
      | groupRefused h =>
          obtain ⟨rfl, rfl⟩ : pid' = pid ∧ e = _ := by simpa using hmem
          rfl
      | groupGone => exact absurd (by simpa using hmem : pid' = pid ∧ e = .noProcess).2 hne
      | _ => simp at hmem
  refused pid' e hmem hnone := by
    have hnone' : Child.Event.asked pid' none ∈ stopping := by
      rcases List.mem_append.mp hnone with hnone | hnone
      · exact absurd hnone (hasked _ _)
      · simpa using hnone
    rcases List.mem_append.mp hmem with hmem | hmem
    · exact nomatch hfront _ hmem
    · cases h with
      | refused e' =>
          obtain ⟨rfl, rfl⟩ : pid' = pid ∧ e = e' := by simpa using hmem
          rfl
      | _ => simp at hnone'
  launch e := by
    constructor
    · intro hanswer
      cases r <;> cases hanswer
    · rintro ⟨launch, reason, hmem, -⟩
      rcases List.mem_append.mp hmem with hmem | hmem
      · exact nomatch hstarted _ _ hmem
      · cases h <;> simp at hmem
  unfinished hanswer := by
    cases r <;> cases hanswer

end Supervised

/-- What stands before the last round. -/
theorem mem_front {t : Terminator} {command : Command} {directory : String} {line : LogLine}
    {pid : Pid} {k : Nat} {x : Child.Event}
    (h : x ∈ opening t command directory line (.ok pid) ++ rounds pid k) :
    x ∈ opening t command directory line (.ok pid) ∨ x = .looked .poll false ∨
      x = .waitedBriefly pid none := by
  refine (List.mem_append.mp h).imp_right fun hx => ?_
  obtain ⟨round, hround, hx⟩ := List.mem_flatten.mp hx
  rw [List.eq_of_mem_replicate hround] at hx
  simpa using hx

theorem countP_rounds (pid : Pid) (k : Nat) : (rounds pid k).countP timesOut = k := by
  induction k with
  | zero => rfl
  | succ k ih =>
      rw [rounds, List.replicate_succ, List.flatten_cons, List.countP_append, ← rounds, ih]
      exact Nat.add_comm 1 k

/-- A command keeps the promises, whichever course it takes. -/
theorem Course.supervised {t : Terminator} {looks : Nat} {command : Command} {directory : String}
    {events : List Child.Event} {answer : Except RunError Verdict}
    (h : Course t looks command directory events answer) :
    Supervised command looks events answer := by
  have hquiet : ∀ {line pid k x}, x ∈ opening t command directory line (.ok pid) ++ rounds pid k →
      stops x = false := by
    intro line pid k x hx
    rcases mem_front hx with hx | rfl | rfl
    · simp only [opening, List.mem_cons, List.not_mem_nil, or_false] at hx
      rcases hx with rfl | rfl | rfl <;> rfl
    · rfl
    · rfl
  have hstarted : ∀ {line pid k launch result}, .started launch result ∈
      opening t command directory line (.ok pid) ++ rounds pid k → result = .ok pid := by
    intro line pid k launch result hx
    rcases mem_front hx with hx | hx | hx
    · simp only [opening, List.mem_cons, Child.Event.started.injEq, List.not_mem_nil, reduceCtorEq,
        false_or, or_false] at hx
      exact hx.2
    · cases hx
    · cases hx
  have hlaunched : ∀ {line result}, .started ⟨command, directory, t.newSession, .null, .inherited,
      .output⟩ result ∈ opening t command directory line result := by simp [opening]
  cases h with
  | refused => exact .of_quiet (by simp [stops]) (by simp) (by simp) (by simp) (by simp)
  | unlaunched line e =>
      refine .of_quiet (by simp [opening, stops]) (by simp) (by simp) ?_ (by simp)
      intro e'
      constructor
      · intro heq
        exact ⟨_, e, hlaunched, by simpa using heq.symm⟩
      · rintro ⟨launch, reason, hmem, rfl⟩
        obtain ⟨-, rfl⟩ : _ ∧ reason = e := by simpa [opening] using hmem
        rfl
  | stopped line pid h =>
      cases h with
      | unfinished =>
          refine .of_quiet (fun _ => hquiet) (by simp) (by simp) ?_ ?_
          · intro e
            constructor
            · intro heq
              cases heq
            · rintro ⟨launch, reason, hmem, -⟩
              exact nomatch hstarted hmem
          · intro _
            rw [List.countP_append, countP_rounds]
            exact Nat.zero_add looks
      | finished hk hlast =>
          cases hlast with
          | stopped remark h =>
              rw [← List.append_assoc]
              refine .of_stopping remark h (fun _ => hquiet) (fun _ _ => hstarted) ?_
              intro pid' status hmem
              rcases mem_front hmem with hx | hx | hx
              · simp [opening] at hx
              · cases hx
              · cases hx
  | @exited line pid _ status remarks h =>
      cases h with
      | finished _ hlast =>
          cases hlast with
          | exited =>
              refine .of_quiet ?_ ?_ (by simp) ?_ (by simp)
              · intro x hx
                rw [← List.append_assoc, List.mem_append, List.mem_append] at hx
                rcases hx with (hx | hx) | hx
                · exact hquiet hx
                · simp only [List.mem_cons, List.not_mem_nil, or_false] at hx
                  rcases hx with rfl | rfl <;> rfl
                · obtain ⟨remark, -, rfl⟩ := List.mem_map.mp hx
                  rfl
              · intro v hv
                obtain rfl := Except.ok.inj hv
                refine ⟨_, pid, status, List.mem_append_left _ (List.mem_append_left _ hlaunched),
                  List.mem_append_left _ (List.mem_append_right _ ?_), ?_⟩
                · exact List.mem_append_right _ (List.mem_of_getLast? rfl)
                · unfold Verdict.ofStatus
                  split <;> simp [*]
              · intro e
                constructor
                · intro heq
                  cases heq
                · rintro ⟨launch, reason, hmem, -⟩
                  rw [← List.append_assoc, List.mem_append, List.mem_append] at hmem
                  rcases hmem with (hmem | hmem) | hmem
                  · exact nomatch hstarted hmem
                  · simp at hmem
                  · simp at hmem

/-! ### Supervision -/

/-- **A command supervises its child.**  Whatever the child, the user and the system do, and
whichever way children are stopped: if the token is set at the start nothing is started; a verdict is
that on the child's own exit; the child is stopped at most once, after a look that has found the
token set, and then there is no verdict; at most one short wait begins with the token set; and the
command counts as cancelled only when the child is gone. -/
theorem run_supervised (o : Outside τ) (t : Terminator) (looks : Nat) (command : Command)
    (directory : String) (w : World τ) :
    ∃ new events,
      (Child.run t o.platform looks command directory w).2.trace = w.trace ++ new ∧
      new.map Moment.act = events.map Act.child ∧ lateWaits new ≤ 1 ∧
      Supervised command looks events (Child.run t o.platform looks command directory w).1 ∧
      (w.token.cancelled = true →
        (Child.run t o.platform looks command directory w).1 = .error .cancelled ∧
          events = [.looked .entry true]) := by
  obtain ⟨events, ⟨new, hlater, hacts, hlate⟩, hcourse, hrefused⟩ :=
    Outside.run_asks o t looks command directory w
  refine ⟨new, events, hlater.trace, hacts, ?_, hcourse.supervised, ?_⟩
  · refine Nat.le_trans hlate ?_
    split <;> omega
  · intro hset
    obtain ⟨w', hrun, -⟩ := Outside.run_of_set o t looks hset command directory
    exact ⟨by rw [hrun], hrefused hset⟩

end Tighten.Campaign
