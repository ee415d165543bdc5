import Tighten.Campaign
import Tighten.Proofs.Answers
import Tighten.Proofs.Batch

/-
Reasoning about the steps of a campaign.

A step starts in a state and ends in another one, with a result or with the reason why the campaign
is over.  `Leads P m Q E` says that from a state with `P` the step `m` ends with `Q` if it gives a
result and with `E` if it ends the campaign.  The state in which a campaign is over matters as much
as any other, since an iteration may start from it again.

What follows is one rule for each way of putting steps together, and one for each step that asks
something of the host: whatever the host answers, the rest of the state stays as it is.
-/
namespace Tighten.Campaign

variable {σ ρ α β : Type}

/-- What holds where a step ends. -/
def Ends (Q : α → State σ ρ → Prop) (E : Failure → State σ ρ → Prop) :
    Except Failure α × State σ ρ → Prop
  | (.ok a, s) => Q a s
  | (.error e, s) => E e s

/-- From a state with `P` the step gives a result with `Q` or ends the campaign with `E`. -/
def Leads (P : State σ ρ → Prop) (m : Step σ ρ α) (Q : α → State σ ρ → Prop)
    (E : Failure → State σ ρ → Prop) : Prop :=
  ∀ s, P s → Ends Q E (m.run.run s)

namespace Leads

variable {P P' : State σ ρ → Prop} {m : Step σ ρ α} {Q Q' : α → State σ ρ → Prop}
  {E E' : Failure → State σ ρ → Prop}

theorem pure {a : α} (h : ∀ s, P s → Q a s) : Leads P (Pure.pure a) Q E :=
  h

theorem throw {e : Failure} (h : ∀ s, P s → E e s) :
    Leads P (MonadExcept.throw e : Step σ ρ α) Q E :=
  h

theorem modify {Q : Unit → State σ ρ → Prop} {f : State σ ρ → State σ ρ}
    (h : ∀ s, P s → Q () (f s)) : Leads P (MonadState.modifyGet fun s => ((), f s)) Q E :=
  h

theorem bind {R : α → State σ ρ → Prop} {Q : β → State σ ρ → Prop} {f : α → Step σ ρ β}
    (hm : Leads P m R E) (hf : ∀ a, Leads (R a) (f a) Q E) : Leads P (m >>= f) Q E := by
  intro s hs
  have hends := hm s hs
  cases hrun : m.run.run s with
  | mk answer s' =>
      rw [hrun] at hends
      cases answer with
      | ok a =>
          rw [run_bind_ok hrun]
          exact hf a s' hends
      | error e =>
          rw [run_bind_error hrun]
          exact hends

theorem weaken (h : Leads P' m Q' E') (hP : ∀ s, P s → P' s) (hQ : ∀ a s, Q' a s → Q a s)
    (hE : ∀ e s, E' e s → E e s) : Leads P m Q E := by
  intro s hs
  have hends := h s (hP s hs)
  cases hrun : m.run.run s with
  | mk answer s' =>
      rw [hrun] at hends
      cases answer with
      | ok a => exact hQ a s' hends
      | error e => exact hE e s' hends

theorem or (h : Leads P m Q E) (h' : Leads P' m Q E) : Leads (fun s => P s ∨ P' s) m Q E :=
  fun s hs => hs.elim (h s) (h' s)

theorem each {γ : Type} {P : γ → State σ ρ → Prop} (h : ∀ x, Leads (P x) m Q E) :
    Leads (fun s => ∃ x, P x s) m Q E := by
  rintro s ⟨x, hs⟩
  exact h x s hs

theorem given {p : Prop} (h : p → Leads P m Q E) : Leads (fun s => p ∧ P s) m Q E := by
  rintro s ⟨hp, hs⟩
  exact h hp s hs

/-- A step with a result leads to what it promises of results. -/
theorem ok {s s' : State σ ρ} {a : α} (h : Leads P m Q E) (hs : P s)
    (hrun : m.run.run s = (.ok a, s')) : Q a s' := by
  have hends := h s hs
  rwa [hrun] at hends

theorem error {s s' : State σ ρ} {e : Failure} (h : Leads P m Q E) (hs : P s)
    (hrun : m.run.run s = (.error e, s')) : E e s' := by
  have hends := h s hs
  rwa [hrun] at hends

/-- What depends on the state at hand can be looked at one state at a time. -/
theorem get {Q : β → State σ ρ → Prop} {f : State σ ρ → Step σ ρ β}
    (h : ∀ s, P s → Ends Q E ((f s).run.run s)) : Leads P (MonadState.get >>= f) Q E := by
  intro s hs
  exact h s hs

theorem forM {γ : Type} {f : γ → Step σ ρ Unit} (xs : List γ)
    (h : ∀ x, Leads P (f x) (fun _ => P) E) : Leads P (xs.forM f) (fun _ => P) E := by
  induction xs with
  | nil => exact Leads.pure fun _ hs => hs
  | cons x xs ih => exact Leads.bind (h x) fun _ => ih

end Leads

/-! ### What is asked of the host -/

variable {c : Setup σ ρ} {P : State σ ρ → Prop} {E : Failure → State σ ρ → Prop}

theorem enter_leads {Q : Unit → State σ ρ → Prop} {phase : Phase}
    (h : ∀ s, P s → Q () { s with phase }) : Leads P (enter phase) Q E :=
  Leads.modify h

theorem note_leads {Q : Unit → State σ ρ → Prop} {line : LogLine}
    (h : ∀ s, P s → Q () { s with host := c.host.log line s.host }) : Leads P (note c line) Q E :=
  Leads.modify h

theorem say_leads {Q : Unit → State σ ρ → Prop} {level : LogLevel} {message : String}
    (h : ∀ s line, P s → Q () { s with host := c.host.log line s.host }) :
    Leads P (say c level message) Q E :=
  note_leads fun s => h s _

/-- What a campaign makes of a tool's answer. -/
def answered : Except RunError Verdict → Except Failure (Except LaunchError Verdict)
  | .ok v => .ok (.ok v)
  | .error (.launch e) => .ok (.error e)
  | .error .cancelled => .error .cancelled
  | .error (.terminate e) => .error (.terminate e)
  | .error .unfinished => .error .unfinished

theorem call_leads {Q : Except LaunchError Verdict → State σ ρ → Prop} {task : Task}
    (h : ∀ s r host, P s → c.host.call task s.host = (r, host) →
      Ends Q E (answered r, { s with host })) : Leads P (call c task) Q E := by
  refine Leads.get fun s hs => ?_
  cases hcall : c.host.call task s.host with
  | mk r host =>
      have hends := h s r host hs hcall
      cases r with
      | ok v => exact hends
      | error e => cases e <;> exact hends

/-- Often it matters only whether the tool reported success. -/
theorem call_success_leads {Q : Except LaunchError Verdict → State σ ρ → Prop} {task : Task}
    (hsuccess : ∀ s host, P s → c.host.call task s.host = (.ok .success, host) →
      Q (.ok .success) { s with host })
    (hother : ∀ s r host, P s → c.host.call task s.host = (r, host) → r ≠ .ok .success →
      (∀ a, a ≠ .ok .success → Q a { s with host }) ∧ ∀ e, E e { s with host }) :
    Leads P (call c task) Q E := by
  refine call_leads fun s r host hs hcall => ?_
  by_cases hr : r = .ok .success
  · subst hr
    exact hsuccess s host hs hcall
  · obtain ⟨hQ, hE⟩ := hother s r host hs hcall hr
    cases r with
    | ok v =>
        cases v with
        | success => exact absurd rfl hr
        | failure => exact hQ (.ok .failure) (by simp)
    | error e =>
        cases e with
        | launch e => exact hQ (.error e) (by simp)
        | cancelled => exact hE _
        | terminate _ => exact hE _
        | unfinished => exact hE _

/-- The last commit is restored only by a tool that reports success. -/
theorem restore_leads {Q : Unit → State σ ρ → Prop} {how : Restore}
    (hok : ∀ s host, P s → c.host.call how.task s.host = (.ok .success, host) →
      Q () { s with host })
    (herror : ∀ s r host e, P s → c.host.call how.task s.host = (r, host) → r ≠ .ok .success →
      E e { s with host }) : Leads P (restore c how) Q E := by
  refine Leads.bind (R := fun answer s => (answer = .ok .success → Q () s) ∧
    (answer ≠ .ok .success → ∀ e, E e s)) (call_success_leads ?_ ?_) ?_
  · intro s host hs hcall
    exact ⟨fun _ => hok s host hs hcall, fun hne => absurd rfl hne⟩
  · intro s r host hs hcall hr
    have hE : ∀ e, E e { s with host } := fun e => herror s r host e hs hcall hr
    exact ⟨fun a ha => ⟨fun heq => absurd heq ha, fun _ => hE⟩, hE⟩
  · intro answer
    cases answer with
    | ok v =>
        cases v with
        | success => exact Leads.pure fun _ hs => hs.1 rfl
        | failure => exact Leads.throw fun _ hs => hs.2 (by simp) _
    | error e => exact Leads.throw fun _ hs => hs.2 (by simp) _

/-- What the campaign draws in a state. -/
def drawn (c : Setup σ ρ) (s : State σ ρ) : Sampling.Result ρ :=
  Sampling.sample c.parser c.source (c.host.survey s.host).1 c.crate c.settings.minBatch.val
    c.settings.maxBatch.val s.random

theorem draw_leads {R : Sampling.Result ρ → State σ ρ → Prop}
    {Q : List Candidate → State σ ρ → Prop}
    (hsurvey : ∀ s, P s → R (drawn c s)
      { s with random := (drawn c s).random, host := (c.host.survey s.host).2 })
    (hnote : ∀ r s line, R r s → R r { s with host := c.host.log line s.host })
    (hok : ∀ r batch s, R r s → r.batch = .ok batch → Q batch s)
    (herror : ∀ r e s, R r s → r.batch = .error e → E (.sample e) s) :
    Leads P (draw c) Q E := by
  refine Leads.get fun s hs => ?_
  refine Leads.bind (P := (· = s)) (R := fun _ => R (drawn c s)) ?_ ?_ s rfl
  · rintro t rfl
    exact hsurvey t hs
  intro _
  refine Leads.bind (Leads.forM _ fun line => note_leads fun t ht => hnote _ t line ht) ?_
  intro _
  cases hbatch : (drawn c s).batch with
  | ok batch =>
      rw [drawn] at hbatch
      rw [hbatch]
      exact Leads.pure fun t ht => hok _ batch t ht hbatch
  | error e =>
      rw [drawn] at hbatch
      rw [hbatch]
      exact Leads.throw fun t ht => herror _ e t ht hbatch

theorem showBatch_leads {Q : Unit → State σ ρ → Prop} {iteration : Nat} {batch : List Candidate}
    (hnone : ∀ s, P s → Q () s)
    (hok : ∀ d ∈ c.host.display, ∀ s host, P s → d.batch iteration batch s.host = (.ok (), host) →
      Q () { s with host })
    (herror : ∀ d ∈ c.host.display, ∀ s e host, P s →
      d.batch iteration batch s.host = (.error e, host) → E (.display e) { s with host }) :
    Leads P (showBatch c iteration batch) Q E := by
  unfold showBatch
  cases hdisplay : c.host.display with
  | none => exact Leads.pure hnone
  | some d =>
      refine Leads.get fun s hs => ?_
      cases hbatch : d.batch iteration batch s.host with
      | mk r host =>
          cases r with
          | ok _ => exact hok d hdisplay s host hs hbatch
          | error e => exact herror d hdisplay s e host hs hbatch

theorem showStatus_leads {Q : Unit → State σ ρ → Prop} {iteration : Nat} {outcome : Outcome}
    (hnone : ∀ s, P s → Q () s)
    (hsome : ∀ d ∈ c.host.display, ∀ s, P s →
      Q () { s with host := d.status iteration outcome s.host }) :
    Leads P (showStatus c iteration outcome) Q E := by
  unfold showStatus
  cases hdisplay : c.host.display with
  | none => exact Leads.pure hnone
  | some d => exact Leads.modify (hsome d hdisplay)

theorem edit_leads {Q : Except SourceError Unit → State σ ρ → Prop} {batch : List Candidate}
    (hok : ∀ s paths host, P s → Batch.apply c.host.write batch s.host = (.ok paths, host) →
      Q (.ok ()) { s with host })
    (hsource : ∀ s e host, P s →
      Batch.apply c.host.write batch s.host = (.error (.source e), host) →
      Q (.error e) { s with host })
    (hregion : ∀ s e host, P s →
      Batch.apply c.host.write batch s.host = (.error (.region e), host) →
      E (.region e) { s with host }) : Leads P (edit c batch) Q E := by
  refine Leads.get fun s hs => ?_
  cases happly : Batch.apply c.host.write batch s.host with
  | mk r host =>
      cases r with
      | ok paths => exact hok s paths host hs happly
      | error e =>
          cases e with
          | region e => exact hregion s e host hs happly
          | source e => exact hsource s e host hs happly

/-! ### What every request keeps

Where nothing that is asked of the host breaks a property of the host's state, no campaign breaks
it.
-/

/-- Every request other than a survey keeps a property of the host's state. -/
structure Keeps (host : Host σ) (K : σ → Prop) : Prop where
  write : ∀ p bytes s, K s → K (host.write p bytes s).2
  call : ∀ task s, K s → K (host.call task s).2
  log : ∀ line s, K s → K (host.log line s)
  batch : ∀ d ∈ host.display, ∀ n batch s, K s → K (d.batch n batch s).2
  status : ∀ d ∈ host.display, ∀ n outcome s, K s → K (d.status n outcome s)

/-- The step keeps a property of the host's state, however it ends. -/
def Preserves (K : σ → Prop) (m : Step σ ρ α) : Prop :=
  Leads (fun s => K s.host) m (fun _ s => K s.host) (fun _ s => K s.host)

section

variable {K : σ → Prop}

theorem Preserves.bind {m : Step σ ρ α} {f : α → Step σ ρ β} (hm : Preserves K m)
    (hf : ∀ a, Preserves K (f a)) : Preserves K (m >>= f) :=
  Leads.bind hm hf

theorem Preserves.pure (a : α) : Preserves K (Pure.pure a : Step σ ρ α) :=
  Leads.pure fun _ hs => hs

theorem Preserves.enter (phase : Phase) : Preserves K (enter phase : Step σ ρ Unit) :=
  enter_leads fun _ hs => hs

variable (hk : Keeps c.host K)

include hk

theorem say_preserves (level : LogLevel) (message : String) : Preserves K (say c level message) :=
  say_leads fun s line hs => hk.log line s.host hs

theorem call_preserves (task : Task) : Preserves K (call c task) := by
  refine call_leads fun s r host hs hcall => ?_
  have hkept := hk.call task s.host hs
  rw [hcall] at hkept
  cases r with
  | ok v => exact hkept
  | error e => cases e <;> exact hkept

theorem restore_preserves (how : Restore) : Preserves K (restore c how) := by
  have hkept : ∀ (s : State σ ρ) r host, K s.host → c.host.call how.task s.host = (r, host) →
      K host := by
    intro s r host hs hcall
    have hkept := hk.call how.task s.host hs
    rwa [hcall] at hkept
  refine restore_leads (fun s host hs hcall => hkept s _ host hs hcall) ?_
  intro s r host e hs hcall _
  exact hkept s r host hs hcall

theorem draw_preserves (hsurvey : ∀ s, K s → K (c.host.survey s).2) : Preserves K (draw c) := by
  refine draw_leads (R := fun _ s => K s.host) ?_ ?_ ?_ ?_
  · intro s hs
    exact hsurvey s.host hs
  · intro r s line hs
    exact hk.log line s.host hs
  · intro r batch s hs _
    exact hs
  · intro r e s hs _
    exact hs

theorem showBatch_preserves (iteration : Nat) (batch : List Candidate) :
    Preserves K (showBatch c iteration batch) := by
  have hkept : ∀ d ∈ c.host.display, ∀ (s : State σ ρ) r host, K s.host →
      d.batch iteration batch s.host = (r, host) → K host := by
    intro d hd s r host hs hbatch
    have hkept := hk.batch d hd iteration batch s.host hs
    rwa [hbatch] at hkept
  refine showBatch_leads (fun _ hs => hs) ?_ ?_
  · intro d hd s host hs hbatch
    exact hkept d hd s _ host hs hbatch
  · intro d hd s e host hs hbatch
    exact hkept d hd s _ host hs hbatch

theorem showStatus_preserves (iteration : Nat) (outcome : Outcome) :
    Preserves K (showStatus c iteration outcome) :=
  showStatus_leads (fun _ hs => hs) fun d hd s hs => hk.status d hd iteration outcome s.host hs

theorem edit_preserves (batch : List Candidate) : Preserves K (edit c batch) :=
  edit_leads (fun _ _ _ hs happly => Batch.apply_keeps hk.write happly hs)
    (fun _ _ _ hs happly => Batch.apply_keeps hk.write happly hs)
    fun _ _ _ hs happly => Batch.apply_keeps hk.write happly hs

theorem format_preserves : Preserves K (format c) := by
  refine (call_preserves hk .format).bind fun answer => ?_
  cases answer with
  | error e => exact say_preserves hk _ _
  | ok v =>
      cases v with
      | success => exact .pure ()
      | failure => exact say_preserves hk _ _

theorem commit_preserves : Preserves K (commit c) := by
  refine (call_preserves hk _).bind fun answer => ?_
  cases answer with
  | error e => exact (say_preserves hk _ _).bind fun _ => .pure false
  | ok v =>
      cases v with
      | success => exact .pure true
      | failure => exact (say_preserves hk _ _).bind fun _ => .pure false

theorem validate_preserves : Preserves K (validate c) := by
  refine (Preserves.enter _).bind fun _ => ?_
  refine (call_preserves hk .test).bind fun answer => ?_
  cases answer with
  | error e => exact (say_preserves hk _ _).bind fun _ => .pure _
  | ok v =>
      cases v with
      | failure => exact .pure _
      | success =>
          refine (Preserves.enter _).bind fun _ => ?_
          have hcommit : Preserves K (do return if ← commit c then Outcome.passed else .error) :=
            (commit_preserves hk).bind fun _ => .pure _
          cases c.settings.format with
          | true => exact (format_preserves hk).bind fun _ => hcommit
          | false => exact hcommit

theorem attempt_preserves (batch : List Candidate) : Preserves K (attempt c batch) := by
  refine (Preserves.enter _).bind fun _ => ?_
  refine (edit_preserves hk batch).bind fun answer => ?_
  cases answer with
  | ok _ => exact validate_preserves hk
  | error e => exact (say_preserves hk _ _).bind fun _ => .pure _

theorem finish_preserves (iteration : Nat) (outcome : Outcome) (batch : List Candidate) :
    Preserves K (finish c iteration outcome batch) := by
  have hrest : Preserves K (do
      enter .clean
      modify fun s => { s with stats := s.stats.count outcome batch.length }
      say c .debug s!"Iteration {iteration}: {outcome.name}"
      showStatus c iteration outcome
      return outcome) := by
    refine (Preserves.enter _).bind fun _ => ?_
    refine Preserves.bind (Leads.modify fun _ hs => hs) fun _ => ?_
    refine (say_preserves hk _ _).bind fun _ => ?_
    exact (showStatus_preserves hk iteration outcome).bind fun _ => .pure _
  unfold finish
  split
  · refine (Preserves.enter _).bind fun _ => ?_
    exact (restore_preserves hk .discard).bind fun _ => hrest
  · exact hrest

theorem iterate_preserves (hsurvey : ∀ s, K s → K (c.host.survey s).2) :
    Preserves K (iterate c) := by
  refine Leads.get fun s hs => ?_
  refine (Preserves.bind (restore_preserves hk .reset) fun _ => ?_ : Preserves K _) s hs
  refine (Preserves.enter _).bind fun _ => ?_
  refine (draw_preserves hk hsurvey).bind fun batch => ?_
  refine (showBatch_preserves hk _ batch).bind fun _ => ?_
  refine (attempt_preserves hk batch).bind fun outcome => ?_
  exact finish_preserves hk _ outcome batch

/-- A campaign keeps what each of its requests keeps. -/
theorem run_preserves (hsurvey : ∀ s, K s → K (c.host.survey s).2) (rounds : Nat) :
    Preserves K (run c rounds) := by
  induction rounds with
  | zero => exact Leads.get fun s hs => hs
  | succ rounds ih =>
      refine Leads.get fun s hs => ?_
      split
      · exact (Preserves.bind (iterate_preserves hk hsurvey) fun _ => ih) s hs
      · exact hs

end

end Tighten.Campaign
