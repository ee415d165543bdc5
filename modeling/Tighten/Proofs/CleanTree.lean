import Tighten.Proofs.Batch
import Tighten.Proofs.Sampling
import Tighten.Proofs.Step

/-
The working tree and the last commit.

A campaign never samples from a tree with edits in it, never ends an iteration with edits left over,
and never commits anything but a batch that passed.  This holds for every iteration on its own,
whatever state it starts in, so it holds for every sequence of iterations; in particular for those
that go on after a failure has left the tree in any state at all.

Of the host it is assumed that it keeps files under version control: returning to the last commit
and committing do what they say when they report success, a request that does not report success
leaves the last commit alone, and testing does not edit files.  Formatting may do to the tree what
it likes, and so may a write that fails.
-/
namespace Tighten.Campaign

/-! ### Version control -/

/-- A host with files under version control: `tree` is what the files hold and `last` what was last
committed. -/
structure Versioned {σ : Type} (host : Host σ) (tree last : σ → Workspace) : Prop where
  survey : ∀ s, (host.survey s).1 = tree s
  survey_keeps : ∀ s, tree (host.survey s).2 = tree s ∧ last (host.survey s).2 = last s
  write : Batch.Honest tree host.write
  write_keeps : ∀ p bytes s, last (host.write p bytes s).2 = last s
  /-- To return to the last commit is to make the tree equal to it. -/
  restore : ∀ (how : Restore) s s', host.call how.task s = (.ok .success, s') → tree s' = last s'
  /-- To commit is to make the last commit equal to the tree. -/
  commit : ∀ message s s', host.call (.commit message) s = (.ok .success, s') →
    tree s' = tree s ∧ last s' = tree s
  /-- Nothing else changes the last commit. -/
  call_keeps : ∀ task s r s', host.call task s = (r, s') →
    (∀ message, task = .commit message → r ≠ .ok .success) → last s' = last s
  test_keeps : ∀ s, tree (host.call .test s).2 = tree s
  log_keeps : ∀ line s, tree (host.log line s) = tree s ∧ last (host.log line s) = last s
  batch_keeps : ∀ d ∈ host.display, ∀ n batch s,
    tree (d.batch n batch s).2 = tree s ∧ last (d.batch n batch s).2 = last s
  status_keeps : ∀ d ∈ host.display, ∀ n outcome s,
    tree (d.status n outcome s) = tree s ∧ last (d.status n outcome s) = last s

/-- Something that every request keeps, a survey if the tree is that of the last commit. -/
structure Watched {σ : Type} (host : Host σ) (tree last : σ → Workspace) (K : σ → Prop) : Prop
    extends Keeps host K where
  survey : ∀ s, tree s = last s → K s → K (host.survey s).2

/-! ### One iteration -/

section

variable {σ ρ : Type} {c : Setup σ ρ} {tree last : σ → Workspace} {K : σ → Prop}
  {L : Workspace} {batch : List Candidate}

/-- The last commit is `L`. -/
def Held (last : σ → Workspace) (K : σ → Prop) (L : Workspace) (s : σ) : Prop :=
  last s = L ∧ K s

/-- The last commit is `L`, and so are the files. -/
def Clean (tree last : σ → Workspace) (K : σ → Prop) (L : Workspace) (s : σ) : Prop :=
  tree s = L ∧ Held last K L s

/-- The files are `L` with the batch made. -/
def Applied (batch : List Candidate) (L applied : Workspace) : Prop :=
  ∃ paths, Batch.apply Workspace.writer batch L = (.ok paths, applied)

/-- The files are what formatting has made of `L` with the batch made. -/
def Formatted (host : Host σ) (tree : σ → Workspace) (batch : List Candidate)
    (L formatted : Workspace) : Prop :=
  ∃ s, Applied batch L (tree s) ∧ formatted = tree (host.call .format s).2

/-- The files are `L` with the batch made and then, if that is asked for, formatted. -/
def Accepted (c : Setup σ ρ) (tree : σ → Workspace) (batch : List Candidate) (L N : Workspace) :
    Prop :=
  if c.settings.format then Formatted c.host tree batch L N else Applied batch L N

/-- What a batch has come to: it is the last commit, or the last commit is still `L`. -/
def Judged (c : Setup σ ρ) (tree last : σ → Workspace) (K : σ → Prop) (batch : List Candidate)
    (L : Workspace) (outcome : Outcome) (s : σ) : Prop :=
  if outcome = .passed then tree s = last s ∧ Accepted c tree batch L (last s) ∧ K s
  else Held last K L s

variable (hv : Versioned c.host tree last) (hk : Watched c.host tree last K)

include hv hk

/-- A request that does not commit leaves the last commit as it is. -/
theorem call_held {task : Task} (htask : ∀ message, task ≠ .commit message) {s host : σ}
    {r : Except RunError Verdict} (hs : Held last K L s) (hcall : c.host.call task s = (r, host)) :
    Held last K L host := by
  have hkept := hk.call task s hs.2
  rw [hcall] at hkept
  refine ⟨(hv.call_keeps task s r host hcall ?_).trans hs.1, hkept⟩
  intro message heq
  exact absurd heq (htask message)

theorem restore_clean (how : Restore) {F : State σ ρ → Prop}
    (hF : ∀ s host, F s → F { s with host }) :
    Leads (fun s => Held last K L s.host ∧ F s) (restore c how)
      (fun _ s => Clean tree last K L s.host ∧ F s) (fun _ s => Held last K L s.host) := by
  have htask : ∀ message, how.task ≠ .commit message := by
    cases how <;> exact fun _ => Task.noConfusion
  refine restore_leads ?_ ?_
  · intro s host hs hcall
    have hafter := call_held hv hk htask hs.1 hcall
    exact ⟨⟨(hv.restore how s.host host hcall).trans hafter.1, hafter⟩, hF s host hs.2⟩
  · intro s r host e hs hcall _
    exact call_held hv hk htask hs.1 hcall

theorem say_held {X : Workspace → Prop} {level : LogLevel} {message : String} :
    Leads (fun s : State σ ρ => X (tree s.host) ∧ Held last K L s.host) (say c level message)
      (fun _ s => X (tree s.host) ∧ Held last K L s.host) (fun _ s => Held last K L s.host) := by
  refine say_leads fun s line hs => ?_
  obtain ⟨htree, hlast⟩ := hv.log_keeps line s.host
  exact ⟨by rw [htree]; exact hs.1, hlast.trans hs.2.1, hk.log line s.host hs.2.2⟩

theorem draw_clean {r : ρ} :
    Leads (fun s => Clean tree last K L s.host ∧ s.random = r) (draw c)
      (fun batch s => (Sampling.sample c.parser c.source L c.crate c.settings.minBatch.val
        c.settings.maxBatch.val r).batch = .ok batch ∧ Clean tree last K L s.host)
      (fun _ s => Held last K L s.host) := by
  refine draw_leads (R := fun result s => Clean tree last K L s.host ∧
    result = Sampling.sample c.parser c.source L c.crate c.settings.minBatch.val
      c.settings.maxBatch.val r) ?_ ?_ ?_ ?_
  · rintro s ⟨⟨htree, hlast, hK⟩, hrandom⟩
    obtain ⟨htree', hlast'⟩ := hv.survey_keeps s.host
    refine ⟨⟨htree'.trans htree, hlast'.trans hlast, ?_⟩, ?_⟩
    · exact hk.survey s.host (htree.trans hlast.symm) hK
    · rw [drawn, hv.survey, htree, hrandom]
  · rintro result s line ⟨⟨htree, hlast, hK⟩, hresult⟩
    obtain ⟨htree', hlast'⟩ := hv.log_keeps line s.host
    exact ⟨⟨htree'.trans htree, hlast'.trans hlast, hk.log line s.host hK⟩, hresult⟩
  · rintro result batch s ⟨hclean, hresult⟩ hbatch
    rw [← hresult]
    exact ⟨hbatch, hclean⟩
  · rintro result e s ⟨hclean, _⟩ _
    exact hclean.2

theorem showBatch_clean {iteration : Nat} :
    Leads (fun s => Clean tree last K L s.host) (showBatch c iteration batch)
      (fun _ s => Clean tree last K L s.host) (fun _ s => Held last K L s.host) := by
  have hkeeps : ∀ d ∈ c.host.display, ∀ (s : State σ ρ) r host, Clean tree last K L s.host →
      d.batch iteration batch s.host = (r, host) → Clean tree last K L host := by
    intro d hd s r host ⟨htree, hlast, hK⟩ hbatch
    have hviews := hv.batch_keeps d hd iteration batch s.host
    have hkept := hk.batch d hd iteration batch s.host hK
    rw [hbatch] at hviews hkept
    exact ⟨hviews.1.trans htree, hviews.2.trans hlast, hkept⟩
  refine showBatch_leads (fun s hs => hs) ?_ ?_
  · intro d hd s host hs hbatch
    exact hkeeps d hd s _ host hs hbatch
  · intro d hd s e host hs hbatch
    exact (hkeeps d hd s _ host hs hbatch).2

theorem edit_clean :
    Leads (fun s => Clean tree last K L s.host) (edit c batch)
      (fun r s => match r with
        | .ok () => Applied batch L (tree s.host) ∧ Held last K L s.host
        | .error _ => Held last K L s.host)
      (fun _ s => Held last K L s.host) := by
  have hheld : ∀ (s : State σ ρ) r host, Clean tree last K L s.host →
      Batch.apply c.host.write batch s.host = (r, host) → Held last K L host := by
    intro s r host ⟨_, hlast, hK⟩ happly
    exact ⟨Batch.apply_keeps (K := fun t => last t = L)
      (fun p bytes t ht => (hv.write_keeps p bytes t).trans ht) happly hlast,
      Batch.apply_keeps hk.write happly hK⟩
  refine edit_leads ?_ ?_ ?_
  · intro s paths host hs happly
    have hsame := Batch.apply_honest hv.write happly
    rw [hs.1] at hsame
    exact ⟨⟨paths, hsame⟩, hheld s _ host hs happly⟩
  · intro s e host hs happly
    exact hheld s _ host hs happly
  · intro s e host hs happly
    exact hheld s _ host hs happly

theorem format_clean :
    Leads (fun s => Applied batch L (tree s.host) ∧ Held last K L s.host) (format c)
      (fun _ s => Formatted c.host tree batch L (tree s.host) ∧ Held last K L s.host)
      (fun _ s => Held last K L s.host) := by
  have hcalled : ∀ (s : State σ ρ) r host, Applied batch L (tree s.host) ∧ Held last K L s.host →
      c.host.call .format s.host = (r, host) →
      Formatted c.host tree batch L (tree host) ∧ Held last K L host := by
    intro s r host hs hcall
    exact ⟨⟨s.host, hs.1, by rw [hcall]⟩, call_held hv hk (fun _ => Task.noConfusion) hs.2 hcall⟩
  refine Leads.bind (R := fun _ s => Formatted c.host tree batch L (tree s.host) ∧
    Held last K L s.host) (call_success_leads ?_ ?_) ?_
  · intro s host hs hcall
    exact hcalled s _ host hs hcall
  · intro s r host hs hcall _
    exact ⟨fun _ _ => hcalled s r host hs hcall, fun _ => (hcalled s r host hs hcall).2⟩
  · intro answer
    cases answer with
    | error e => exact say_held hv hk
    | ok v =>
        cases v with
        | success => exact Leads.pure fun _ hs => hs
        | failure => exact say_held hv hk

/-- A remark on the way leaves the last commit as it is. -/
theorem say_held_return {α : Type} {a : α} {level : LogLevel} {message : String} :
    Leads (fun s : State σ ρ => Held last K L s.host) (do
      say c level message
      return a) (fun b s => b = a ∧ Held last K L s.host) (fun _ s => Held last K L s.host) := by
  refine Leads.bind ((say_held (X := fun _ => True) hv hk).weaken (fun s hs => ⟨trivial, hs⟩)
    (fun _ _ hs => hs) fun _ _ hs => hs) fun _ => ?_
  exact Leads.pure fun _ hs => ⟨rfl, hs.2⟩

theorem commit_clean {X : Workspace → Prop} :
    Leads (fun s => X (tree s.host) ∧ Held last K L s.host) (commit c)
      (fun done s => if done then tree s.host = last s.host ∧ X (last s.host) ∧ K s.host
        else Held last K L s.host)
      (fun _ s => Held last K L s.host) := by
  refine Leads.bind (R := fun answer s => (answer = .ok .success →
    tree s.host = last s.host ∧ X (last s.host) ∧ K s.host) ∧
    (answer ≠ .ok .success → Held last K L s.host)) (call_success_leads ?_ ?_) ?_
  · intro s host ⟨hX, hheld⟩ hcall
    have hkept := hk.call (.commit c.settings.commitMessage) s.host hheld.2
    rw [hcall] at hkept
    obtain ⟨htree, hlast⟩ := hv.commit _ s.host host hcall
    refine ⟨fun _ => ⟨htree.trans hlast.symm, ?_, hkept⟩, fun hne => absurd rfl hne⟩
    rw [hlast]
    exact hX
  · intro s r host ⟨_, hheld⟩ hcall hr
    have hkept := hk.call (.commit c.settings.commitMessage) s.host hheld.2
    rw [hcall] at hkept
    have hheld' : Held last K L host :=
      ⟨(hv.call_keeps _ s.host r host hcall fun _ _ => hr).trans hheld.1, hkept⟩
    exact ⟨fun a ha => ⟨fun heq => absurd heq ha, fun _ => hheld'⟩, fun _ => hheld'⟩
  · intro answer
    have hfalse : ∀ b s, b = false ∧ Held last K L s →
        if b = true then tree s = last s ∧ X (last s) ∧ K s else Held last K L s := by
      rintro b s ⟨rfl, hs⟩
      exact hs
    cases answer with
    | error e =>
        exact (say_held_return hv hk).weaken (fun _ hs => hs.2 (by simp))
          (fun b s => hfalse b s.host) fun _ _ hs => hs
    | ok v =>
        cases v with
        | success => exact Leads.pure fun _ hs => hs.1 rfl
        | failure =>
            exact (say_held_return hv hk).weaken (fun _ hs => hs.2 (by simp))
              (fun b s => hfalse b s.host) fun _ _ hs => hs

/-- A batch that is made ends up committed, or the last commit stays. -/
theorem validate_clean :
    Leads (fun s => Applied batch L (tree s.host) ∧ Held last K L s.host) (validate c)
      (fun outcome s => Judged c tree last K batch L outcome s.host)
      (fun _ s => Held last K L s.host) := by
  refine Leads.bind (R := fun _ s => Applied batch L (tree s.host) ∧ Held last K L s.host)
    (enter_leads fun _ hs => hs) fun _ => ?_
  have htested : ∀ (s : State σ ρ) r host, Applied batch L (tree s.host) ∧ Held last K L s.host →
      c.host.call .test s.host = (r, host) →
      Applied batch L (tree host) ∧ Held last K L host := by
    intro s r host hs hcall
    have htree := hv.test_keeps s.host
    rw [hcall] at htree
    refine ⟨?_, call_held hv hk (fun _ => Task.noConfusion) hs.2 hcall⟩
    rw [htree]
    exact hs.1
  refine Leads.bind (R := fun _ s => Applied batch L (tree s.host) ∧ Held last K L s.host)
    (call_success_leads ?_ ?_) ?_
  · intro s host hs hcall
    exact htested s _ host hs hcall
  · intro s r host hs hcall _
    exact ⟨fun _ _ => htested s r host hs hcall, fun _ => (htested s r host hs hcall).2⟩
  · intro answer
    cases answer with
    | error e =>
        refine Leads.bind (say_held hv hk) fun _ => ?_
        exact Leads.pure fun _ hs => hs.2
    | ok v =>
        cases v with
        | failure => exact Leads.pure fun _ hs => hs.2
        | success =>
            refine Leads.bind (R := fun _ s => Applied batch L (tree s.host) ∧
              Held last K L s.host) (enter_leads fun _ hs => hs) fun _ => ?_
            have hcommit : Leads (fun s => Accepted c tree batch L (tree s.host) ∧
                Held last K L s.host) (do return if ← commit c then .passed else .error)
                (fun outcome s => Judged c tree last K batch L outcome s.host)
                (fun _ s => Held last K L s.host) := by
              refine Leads.bind (commit_clean hv hk) fun done => ?_
              cases done with
              | true => exact Leads.pure fun _ hs => hs
              | false => exact Leads.pure fun _ hs => hs
            -- what is committed is the tree with or without formatting
            cases hformat : c.settings.format with
            | true =>
                refine Leads.bind (format_clean hv hk) fun _ => ?_
                refine hcommit.weaken (fun s hs => ⟨?_, hs.2⟩) (fun _ _ hs => hs) fun _ _ hs => hs
                rw [Accepted, if_pos hformat]
                exact hs.1
            | false =>
                refine hcommit.weaken (fun s hs => ⟨?_, hs.2⟩) (fun _ _ hs => hs) fun _ _ hs => hs
                rw [Accepted, if_neg (by rw [hformat]; exact Bool.false_ne_true)]
                exact hs.1

theorem attempt_clean :
    Leads (fun s => Clean tree last K L s.host) (attempt c batch)
      (fun outcome s => Judged c tree last K batch L outcome s.host)
      (fun _ s => Held last K L s.host) := by
  refine Leads.bind (R := fun _ s => Clean tree last K L s.host) (enter_leads fun _ hs => hs)
    fun _ => ?_
  refine Leads.bind (edit_clean hv hk) fun answer => ?_
  cases answer with
  | ok _ => exact validate_clean hv hk
  | error e =>
      refine (say_held_return hv hk).weaken (fun _ hs => hs) ?_ fun _ _ hs => hs
      rintro outcome s ⟨rfl, hs⟩
      exact hs

/-- What has come of the batch, once the files are those of the last commit. -/
def Settled (c : Setup σ ρ) (tree last : σ → Workspace) (K : σ → Prop) (batch : List Candidate)
    (L : Workspace) (outcome : Outcome) (s : σ) : Prop :=
  tree s = last s ∧ Judged c tree last K batch L outcome s

omit hv hk in
/-- It is a matter of the files, the last commit and what is watched. -/
theorem Settled.congr {outcome : Outcome} {s t : σ} (h : Settled c tree last K batch L outcome s)
    (hviews : tree t = tree s ∧ last t = last s) (hK : K s → K t) :
    Settled c tree last K batch L outcome t := by
  obtain ⟨hclean, hjudged⟩ := h
  refine ⟨by rw [hviews.1, hviews.2]; exact hclean, ?_⟩
  unfold Judged at hjudged ⊢
  split
  · next houtcome =>
      rw [if_pos houtcome] at hjudged
      rw [hviews.1, hviews.2]
      exact ⟨hjudged.1, hjudged.2.1, hK hjudged.2.2⟩
  · next houtcome =>
      rw [if_neg houtcome] at hjudged
      exact ⟨hviews.2.trans hjudged.1, hK hjudged.2⟩

/-- An iteration that gives an outcome ends with a clean tree. -/
theorem finish_clean {iteration : Nat} {outcome : Outcome} :
    Leads (fun s => Judged c tree last K batch L outcome s.host)
      (finish c iteration outcome batch)
      (fun o s => o = outcome ∧ Settled c tree last K batch L outcome s.host)
      (fun _ s => Held last K L s.host) := by
  have hrest : Leads (fun s => Settled c tree last K batch L outcome s.host) (do
        enter .clean
        modify fun s => { s with stats := s.stats.count outcome batch.length }
        say c .debug s!"Iteration {iteration}: {outcome.name}"
        showStatus c iteration outcome
        return outcome)
      (fun o s => o = outcome ∧ Settled c tree last K batch L outcome s.host)
      (fun _ s => Held last K L s.host) := by
    refine Leads.bind (R := fun _ s => Settled c tree last K batch L outcome s.host)
      (enter_leads fun _ hs => hs) fun _ => ?_
    refine Leads.bind (R := fun _ s => Settled c tree last K batch L outcome s.host)
      (Leads.modify fun _ hs => hs) fun _ => ?_
    refine Leads.bind (R := fun _ s => Settled c tree last K batch L outcome s.host)
      (say_leads fun s line hs => hs.congr (hv.log_keeps line s.host) (hk.log line s.host))
      fun _ => ?_
    refine Leads.bind (R := fun _ s => Settled c tree last K batch L outcome s.host)
      (showStatus_leads (fun _ hs => hs) fun d hd s hs =>
        hs.congr (hv.status_keeps d hd iteration outcome s.host)
          (hk.status d hd iteration outcome s.host)) fun _ => ?_
    exact Leads.pure fun _ hs => ⟨rfl, hs⟩
  unfold finish
  by_cases houtcome : outcome = .passed
  · rw [if_neg (not_not.mpr houtcome)]
    refine hrest.weaken (fun s hs => ⟨?_, hs⟩) (fun _ _ hs => hs) fun _ _ hs => hs
    rw [Judged, if_pos houtcome] at hs
    exact hs.1
  · rw [if_pos houtcome]
    refine Leads.bind (R := fun _ s => Held last K L s.host ∧ True)
      (enter_leads fun s hs => ?_) fun _ => ?_
    · rw [Judged, if_neg houtcome] at hs
      exact ⟨hs, trivial⟩
    · refine Leads.bind (restore_clean hv hk .discard fun _ _ hs => hs) fun _ => ?_
      refine hrest.weaken (fun s hs => ?_) (fun _ _ hs => hs) fun _ _ hs => hs
      obtain ⟨⟨htree, hheld⟩, -⟩ := hs
      refine ⟨htree.trans hheld.1.symm, ?_⟩
      rw [Judged, if_neg houtcome]
      exact hheld

/-- One iteration, from any state at all. -/
theorem iterate_clean {r : ρ} :
    Leads (fun s => Held last K L s.host ∧ s.random = r) (iterate c)
      (fun outcome s => ∃ batch, (Sampling.sample c.parser c.source L c.crate
        c.settings.minBatch.val c.settings.maxBatch.val r).batch = .ok batch ∧
        Settled c tree last K batch L outcome s.host)
      (fun _ s => Held last K L s.host) := by
  unfold iterate
  refine Leads.get fun s hs => ?_
  refine (Leads.bind (restore_clean hv hk .reset (F := fun t => t.random = r)
    fun _ _ ht => ht) fun _ => ?_ : Leads _ _ _ _) s hs
  refine Leads.bind (R := fun _ t => Clean tree last K L t.host ∧ t.random = r)
    (enter_leads fun _ ht => ht) fun _ => ?_
  refine Leads.bind (draw_clean hv hk) fun batch => ?_
  have hrest : Leads (fun t => Clean tree last K L t.host) (do
      showBatch c (s.stats.iterations + 1) batch
      let outcome ← attempt c batch
      finish c (s.stats.iterations + 1) outcome batch)
      (fun outcome t => Settled c tree last K batch L outcome t.host)
      (fun _ t => Held last K L t.host) := by
    refine Leads.bind (showBatch_clean hv hk) fun _ => ?_
    refine Leads.bind (attempt_clean hv hk) fun outcome => ?_
    refine (finish_clean hv hk).weaken (fun _ ht => ht) ?_ fun _ _ ht => ht
    rintro o t ⟨rfl, ht⟩
    exact ht
  intro t ⟨hbatch, ht⟩
  exact (hrest.weaken (fun _ h => h) (fun _ _ h => ⟨batch, hbatch, h⟩) fun _ _ h => h) t ht

end

/-! ### Stamps

To speak of the last commit at the moment of a request, each request is noted together with what can
be said of the state in which it is made.  The host answers as it would without that.
-/

section

variable {σ ρ α : Type}

/-- A display whose requests are noted with a stamp. -/
def Display.stamped (stamp : σ → α) (d : Display σ) : Display (σ × List (Event × α)) where
  batch n candidates := fun (s, trace) =>
    let (r, s') := d.batch n candidates s
    (r, (s', trace ++ [(.showedBatch n candidates, stamp s)]))
  status n outcome := fun (s, trace) =>
    (d.status n outcome s, trace ++ [(.showedStatus n outcome, stamp s)])

/-- The host that notes each request with a stamp. -/
def Host.stamped (stamp : σ → α) (h : Host σ) : Host (σ × List (Event × α)) where
  survey := fun (s, trace) =>
    let (files, s') := h.survey s
    (files, (s', trace ++ [(.surveyed files, stamp s)]))
  write path bytes := fun (s, trace) =>
    let (r, s') := h.write path bytes s
    (r, (s', trace ++ [(.wrote path bytes r, stamp s)]))
  call task := fun (s, trace) =>
    let (r, s') := h.call task s
    (r, (s', trace ++ [(.called task r, stamp s)]))
  log line := fun (s, trace) => (h.log line s, trace ++ [(.logged line, stamp s)])
  display := h.display.map (Display.stamped stamp)

/-- The campaign at such a host. -/
def Setup.stamped (stamp : σ → α) (c : Setup σ ρ) : Setup (σ × List (Event × α)) ρ :=
  ⟨c.crate, c.settings, c.parser, c.source, c.host.stamped stamp⟩

theorem mem_display_stamped {stamp : σ → α} {h : Host σ} {d : Display (σ × List (Event × α))}
    (hd : d ∈ (h.stamped stamp).display) : ∃ e ∈ h.display, d = e.stamped stamp := by
  obtain ⟨e, he, rfl⟩ := Option.mem_map.mp hd
  exact ⟨e, he, rfl⟩

/-- Notes are no part of the files. -/
theorem Versioned.stamped {stamp : σ → α} {h : Host σ} {tree last : σ → Workspace}
    (hv : Versioned h tree last) :
    Versioned (h.stamped stamp) (fun s => tree s.1) (fun s => last s.1) where
  survey s := hv.survey s.1
  survey_keeps s := hv.survey_keeps s.1
  write p bytes s s' hwrite := by
    refine hv.write p bytes s.1 s'.1 ?_
    rw [← (Prod.mk.inj hwrite).1, ← (Prod.mk.inj hwrite).2]
  write_keeps p bytes s := hv.write_keeps p bytes s.1
  restore how s s' hcall := by
    refine hv.restore how s.1 s'.1 ?_
    rw [← (Prod.mk.inj hcall).1, ← (Prod.mk.inj hcall).2]
  commit message s s' hcall := by
    refine hv.commit message s.1 s'.1 ?_
    rw [← (Prod.mk.inj hcall).1, ← (Prod.mk.inj hcall).2]
  call_keeps task s r s' hcall := by
    refine hv.call_keeps task s.1 r s'.1 ?_
    rw [← (Prod.mk.inj hcall).1, ← (Prod.mk.inj hcall).2]
  test_keeps s := hv.test_keeps s.1
  log_keeps line s := hv.log_keeps line s.1
  batch_keeps d hd n batch s := by
    obtain ⟨e, he, rfl⟩ := mem_display_stamped hd
    exact hv.batch_keeps e he n batch s.1
  status_keeps d hd n outcome s := by
    obtain ⟨e, he, rfl⟩ := mem_display_stamped hd
    exact hv.status_keeps e he n outcome s.1

/-- Every survey so far has seen the files of the last commit. -/
def SurveysClean (s : σ × List (Event × Workspace)) : Prop :=
  ∀ x ∈ s.2, ∀ files, x.1 = .surveyed files → files = x.2

theorem surveysClean_append {s : σ × List (Event × Workspace)} (h : SurveysClean s) {t : σ}
    {event : Event} {stamp : Workspace}
    (hevent : ∀ files, event = .surveyed files → files = stamp) :
    SurveysClean (t, s.2 ++ [(event, stamp)]) := by
  intro x hx files hfiles
  rcases List.mem_append.mp hx with hx | hx
  · exact h x hx files hfiles
  · obtain rfl := List.mem_singleton.mp hx
    exact hevent files hfiles

theorem surveysClean_watched {h : Host σ} {tree last : σ → Workspace}
    (hv : Versioned h tree last) :
    Watched (h.stamped last) (fun s => tree s.1) (fun s => last s.1) SurveysClean where
  survey s hclean hs := by
    refine surveysClean_append hs fun files hfiles => ?_
    rw [← Event.surveyed.inj hfiles, hv.survey, hclean]
  write p bytes s hs := surveysClean_append hs fun _ => Event.noConfusion
  call task s hs := surveysClean_append hs fun _ => Event.noConfusion
  log line s hs := surveysClean_append hs fun _ => Event.noConfusion
  batch d hd n batch s hs := by
    obtain ⟨e, -, rfl⟩ := mem_display_stamped hd
    exact surveysClean_append hs fun _ => Event.noConfusion
  status d hd n outcome s hs := by
    obtain ⟨e, -, rfl⟩ := mem_display_stamped hd
    exact surveysClean_append hs fun _ => Event.noConfusion

end

/-! ### Sequences of iterations -/

/-- One iteration: where it started, what it answered and where it ended. -/
structure Turn (σ ρ : Type) where
  before : State σ ρ
  answer : Except Failure Outcome
  after : State σ ρ

variable {σ ρ : Type}

/-- Iterations one after the other, each from where the one before it ended, however it ended. -/
def turns (c : Setup σ ρ) : Nat → State σ ρ → List (Turn σ ρ)
  | 0, _ => []
  | n + 1, s =>
    let (answer, after) := (iterate c).run.run s
    ⟨s, answer, after⟩ :: turns c n after

/-- What holds of every iteration and hands on its condition holds of each in a sequence. -/
theorem turns_all {c : Setup σ ρ} {I : State σ ρ → Prop} {T : Turn σ ρ → Prop}
    (h : ∀ s answer after, I s → (iterate c).run.run s = (answer, after) →
      T ⟨s, answer, after⟩ ∧ I after) (n : Nat) :
    ∀ s, I s → ∀ t ∈ turns c n s, T t := by
  induction n with
  | zero =>
      intro s _ t ht
      exact absurd ht List.not_mem_nil
  | succ n ih =>
      intro s hs t ht
      obtain ⟨hturn, hafter⟩ := h s _ _ hs rfl
      rcases List.mem_cons.mp ht with rfl | ht
      · exact hturn
      · exact ih _ hafter t ht

theorem Accepted.of_stamped {α : Type} {stamp : σ → α} {c : Setup σ ρ} {tree : σ → Workspace}
    {batch : List Candidate} {L N : Workspace}
    (h : Accepted (c.stamped stamp) (fun s => tree s.1) batch L N) : Accepted c tree batch L N := by
  unfold Accepted at h ⊢
  split at h
  · next hformat =>
      rw [if_pos (show c.settings.format = true from hformat)]
      obtain ⟨s, hs, hN⟩ := h
      exact ⟨s.1, hs, hN⟩
  · next hformat =>
      rw [if_neg (show ¬c.settings.format = true from hformat)]
      exact h

/-- **The tree is clean between iterations.**  In any sequence of iterations, from any tree: a batch
is only drawn from the files of the last commit, an iteration that gives an outcome leaves the files
of the last commit, and the last commit changes only where the outcome is that the batch passed,
and then by that batch. -/
theorem turns_clean {c : Setup σ ρ} {tree last : σ → Workspace} (hv : Versioned c.host tree last)
    (n : Nat) (s : State (σ × List (Event × Workspace)) ρ) (hfresh : s.host.2 = []) :
    ∀ t ∈ turns (c.stamped last) n s,
      (∀ x ∈ t.after.host.2, ∀ files, x.1 = .surveyed files → files = x.2) ∧
      (∀ outcome, t.answer = .ok outcome → tree t.after.host.1 = last t.after.host.1) ∧
      (t.answer ≠ .ok .passed → last t.after.host.1 = last t.before.host.1) ∧
      (t.answer = .ok .passed → ∃ batch,
        (Sampling.sample c.parser c.source (last t.before.host.1) c.crate c.settings.minBatch.val
          c.settings.maxBatch.val t.before.random).batch = .ok batch ∧
        Accepted c tree batch (last t.before.host.1) (last t.after.host.1)) := by
  refine turns_all (I := fun s => SurveysClean s.host) ?_ n s ?_
  · intro s answer after hs hrun
    have hleads := iterate_clean (c := c.stamped last) (L := last s.host.1) (r := s.random)
      hv.stamped (surveysClean_watched hv)
    cases answer with
    | error e =>
        obtain ⟨hlast, hsurveys⟩ := hleads.error ⟨⟨rfl, hs⟩, rfl⟩ hrun
        exact ⟨⟨hsurveys, by simp, fun _ => hlast, by simp⟩, hsurveys⟩
    | ok outcome =>
        obtain ⟨batch, hbatch, hclean, hjudged⟩ := hleads.ok ⟨⟨rfl, hs⟩, rfl⟩ hrun
        by_cases houtcome : outcome = .passed
        · rw [Judged, if_pos houtcome] at hjudged
          obtain ⟨-, haccepted, hsurveys⟩ := hjudged
          refine ⟨⟨hsurveys, fun _ _ => hclean, ?_, fun _ => ⟨batch, hbatch, ?_⟩⟩, hsurveys⟩
          · intro hne
            exact absurd (congrArg Except.ok houtcome) hne
          · exact haccepted.of_stamped
        · rw [Judged, if_neg houtcome] at hjudged
          obtain ⟨hlast, hsurveys⟩ := hjudged
          refine ⟨⟨hsurveys, fun _ _ => hclean, fun _ => hlast, ?_⟩, hsurveys⟩
          intro heq
          exact absurd (Except.ok.inj heq) houtcome
  · intro x hx
    rw [hfresh] at hx
    exact absurd hx List.not_mem_nil

/-- A host that keeps the files and the last commit, whose tools always succeed. -/
def repository : Host (Workspace × Workspace) where
  survey s := (s.1, s)
  write p bytes s := ((Workspace.writer p bytes s.1).1, ((Workspace.writer p bytes s.1).2, s.2))
  call task s := match task with
    | .reset => (.ok .success, (s.2, s.2))
    | .discard => (.ok .success, (s.2, s.2))
    | .commit _ => (.ok .success, (s.1, s.1))
    | .test => (.ok .success, s)
    | .format => (.ok .success, s)
  log _ s := s
  display := none

theorem repository_versioned : Versioned repository Prod.fst Prod.snd where
  survey _ := rfl
  survey_keeps _ := ⟨rfl, rfl⟩
  write p bytes s s' h := by
    refine Batch.writer_honest p bytes s.1 s'.1 ?_
    obtain ⟨hanswer, rfl⟩ := Prod.mk.inj h
    exact Prod.ext hanswer rfl
  write_keeps _ _ _ := rfl
  restore how s s' h := by
    cases how <;> rw [← (Prod.mk.inj h).2]
  commit _ s s' h := by
    rw [← (Prod.mk.inj h).2]
    exact ⟨rfl, rfl⟩
  call_keeps task s r s' h hcommit := by
    cases task with
    | commit message => exact absurd (Prod.mk.inj h).1.symm (hcommit message rfl)
    | test => rw [← (Prod.mk.inj h).2]
    | format => rw [← (Prod.mk.inj h).2]
    | reset => rw [← (Prod.mk.inj h).2]
    | discard => rw [← (Prod.mk.inj h).2]
  test_keeps _ := rfl
  log_keeps _ _ := ⟨rfl, rfl⟩
  batch_keeps _ hd := nomatch hd
  status_keeps _ hd := nomatch hd

/-- The campaign over the small crate. -/
def smallCampaign : Setup (Workspace × Workspace) Unit :=
  ⟨Sampling.smallCrate, .default, Rust.parse, Sampling.first, repository⟩

/-- The small crate with its source file emptied since the last commit. -/
def dirtyState : State ((Workspace × Workspace) × List (Event × Workspace)) Unit where
  random := ()
  host := ((Sampling.smallFiles.put [sourceDirectory, "lib.rs"] (.file []), Sampling.smallFiles),
    [])

/-- The first of two iterations passes although the tree was dirty, and commits its batch. -/
theorem turns_clean_smallCampaign :
    ∃ t ∈ turns (smallCampaign.stamped Prod.snd) 2 dirtyState,
      t.before.host.1.1 ≠ t.before.host.1.2 ∧ t.answer = .ok .passed ∧
      t.after.host.1.1 = t.after.host.1.2 ∧ t.after.host.1.2 ≠ t.before.host.1.2 := by
  have heval : ((turns (smallCampaign.stamped Prod.snd) 2 dirtyState).map fun t =>
      (t.answer.toOption, decide (t.before.host.1.1 ≠ t.before.host.1.2),
        decide (t.after.host.1.2 ≠ t.before.host.1.2))).head?
      = some (some .passed, true, true) := by
    decide +kernel
  cases hturns : turns (smallCampaign.stamped Prod.snd) 2 dirtyState with
  | nil => simp [hturns] at heval
  | cons t rest =>
      rw [hturns, List.map_cons, List.head?_cons] at heval
      simp only [Option.some.injEq, Prod.mk.injEq, decide_eq_true_eq] at heval
      obtain ⟨hanswer, hdirty, hchanged⟩ := heval
      have hpassed : t.answer = .ok .passed := by
        cases h : t.answer with
        | error e => simp [h, Except.toOption] at hanswer
        | ok outcome =>
            rw [h] at hanswer
            exact congrArg Except.ok (Option.some.inj hanswer)
      have hmem : t ∈ turns (smallCampaign.stamped Prod.snd) 2 dirtyState := by
        rw [hturns]
        exact List.mem_cons_self
      obtain ⟨-, hclean, -⟩ := turns_clean repository_versioned 2 dirtyState rfl t hmem
      exact ⟨t, List.mem_cons_self, hdirty, hpassed, hclean _ hpassed, hchanged⟩

end Tighten.Campaign
