import Tighten.Proofs.CleanTree

/-
Files that are not under version control.

A batch may edit every source file of the crate.  To return to the last commit touches only the
files that are part of it, and so does a commit.  So it depends on the file whether a batch is all
or nothing.  A file of the last commit is put back unless the batch passes, and is part of the next
commit if the batch passes.  Any other file keeps its edits although the tests failed, and is part
of no commit although they passed.

Here the last commit is a map from names to bytes, and returning to it is known only by what it does
to each file.  `CleanTree` is about the case that every file is part of the last commit.
-/
namespace Tighten.Campaign

/-- The files of a batch are files once it is made. -/
theorem Applied.isFile {batch : List Candidate} {L applied : Workspace}
    (h : Applied batch L applied) {p : Path} (hp : p ∈ Batch.paths batch) {names : List String}
    (hnames : L.locate p = .ok names) : (applied.bytes? names).isSome = true := by
  obtain ⟨paths, happly⟩ := h
  obtain ⟨-, happly⟩ := Batch.apply_eq_ok.mp happly
  exact (Batch.applyTo_keeps_files _ L applied happly).2 p hp names hnames

/-! ### Version control of some files -/

/-- A host with some files under version control: `tree` is what the files hold, and `last` gives
the bytes of each file that is part of the last commit. -/
structure Tracking {σ : Type} (host : Host σ) (tree : σ → Workspace)
    (last : σ → List String → Option (List UInt8)) : Prop where
  survey : ∀ s, (host.survey s).1 = tree s
  survey_keeps : ∀ s, tree (host.survey s).2 = tree s ∧ last (host.survey s).2 = last s
  write : Batch.Honest tree host.write
  write_keeps : ∀ p bytes s, last (host.write p bytes s).2 = last s
  /-- To return to the last commit is to put back its files and leave all others alone. -/
  restore : ∀ (how : Restore) s s', host.call how.task s = (.ok .success, s') →
    ∀ names, (tree s').bytes? names = (last s names).or ((tree s).bytes? names)
  /-- To commit is to record the files of the last commit as they are now, and no others. -/
  commit : ∀ message s s', host.call (.commit message) s = (.ok .success, s') →
    tree s' = tree s ∧ ∀ names, last s' names = (last s names).bind fun _ => (tree s).bytes? names
  /-- Nothing else changes the last commit. -/
  call_keeps : ∀ task s r s', host.call task s = (r, s') →
    (∀ message, task = .commit message → r ≠ .ok .success) → last s' = last s
  test_keeps : ∀ s, tree (host.call .test s).2 = tree s
  /-- Formatting makes and removes no file. -/
  format_keeps : ∀ s names, ((tree (host.call .format s).2).bytes? names).isSome =
    ((tree s).bytes? names).isSome
  log_keeps : ∀ line s, tree (host.log line s) = tree s ∧ last (host.log line s) = last s
  batch_keeps : ∀ d ∈ host.display, ∀ n batch s,
    tree (d.batch n batch s).2 = tree s ∧ last (d.batch n batch s).2 = last s
  status_keeps : ∀ d ∈ host.display, ∀ n outcome s,
    tree (d.status n outcome s) = tree s ∧ last (d.status n outcome s) = last s

section

variable {σ ρ : Type} {c : Setup σ ρ} {tree : σ → Workspace}
  {last : σ → List String → Option (List UInt8)} {L : Workspace}
  {C : List String → Option (List UInt8)} {batch : List Candidate}

/-- What has come of a batch before the iteration ends, where the files were `L` and the last commit
was `C`. -/
def Weighed (c : Setup σ ρ) (tree : σ → Workspace) (last : σ → List String → Option (List UInt8))
    (batch : List Candidate) (L : Workspace) (C : List String → Option (List UInt8)) :
    Outcome → σ → Prop
  | .passed, s => Accepted c tree batch L (tree s) ∧
      ∀ names, last s names = (C names).bind fun _ => (tree s).bytes? names
  | .failed, s => Applied batch L (tree s) ∧ last s = C
  | .error, s => last s = C

/-- What has come of it once the iteration has ended. -/
def Parted (c : Setup σ ρ) (tree : σ → Workspace) (last : σ → List String → Option (List UInt8))
    (batch : List Candidate) (L : Workspace) (C : List String → Option (List UInt8)) :
    Outcome → σ → Prop
  | .passed, s => Accepted c tree batch L (tree s) ∧
      ∀ names, last s names = (C names).bind fun _ => (tree s).bytes? names
  | .failed, s => ∃ applied, Applied batch L applied ∧
      ∀ names, (tree s).bytes? names = (C names).or (applied.bytes? names)
  | .error, s => ∀ names bytes, C names = some bytes → (tree s).bytes? names = some bytes

/-- The end of the campaign is no matter here. -/
abbrev Anyhow : Failure → State σ ρ → Prop := fun _ _ => True

variable (ht : Tracking c.host tree last)

include ht

theorem call_last {task : Task} (htask : ∀ message, task ≠ .commit message) {s host : σ}
    {r : Except RunError Verdict} (hcall : c.host.call task s = (r, host)) : last host = last s :=
  ht.call_keeps task s r host hcall fun message heq => absurd heq (htask message)

theorem say_keeps {F : Workspace → (List String → Option (List UInt8)) → Prop} (level : LogLevel)
    (message : String) :
    Leads (fun s : State σ ρ => F (tree s.host) (last s.host)) (say c level message)
      (fun _ s => F (tree s.host) (last s.host)) Anyhow := by
  refine say_leads fun s line hs => ?_
  obtain ⟨htree, hlast⟩ := ht.log_keeps line s.host
  show F (tree (c.host.log line s.host)) (last (c.host.log line s.host))
  rw [htree, hlast]
  exact hs

theorem draw_keeps {r : ρ} :
    Leads (fun s : State σ ρ => (tree s.host = L ∧ last s.host = C) ∧ s.random = r) (draw c)
      (fun batch s => (Sampling.sample c.parser c.source L c.crate c.settings.minBatch.val
        c.settings.maxBatch.val r).batch = .ok batch ∧ tree s.host = L ∧ last s.host = C)
      Anyhow := by
  refine draw_leads (R := fun result s => (tree s.host = L ∧ last s.host = C) ∧
    result = Sampling.sample c.parser c.source L c.crate c.settings.minBatch.val
      c.settings.maxBatch.val r) ?_ ?_ ?_ ?_
  · rintro s ⟨⟨htree, hlast⟩, hrandom⟩
    obtain ⟨htree', hlast'⟩ := ht.survey_keeps s.host
    refine ⟨⟨htree'.trans htree, hlast'.trans hlast⟩, ?_⟩
    rw [drawn, ht.survey, htree, hrandom]
  · rintro result s line ⟨⟨htree, hlast⟩, hresult⟩
    obtain ⟨htree', hlast'⟩ := ht.log_keeps line s.host
    exact ⟨⟨htree'.trans htree, hlast'.trans hlast⟩, hresult⟩
  · rintro result batch s ⟨hs, hresult⟩ hbatch
    rw [← hresult]
    exact ⟨hbatch, hs⟩
  · intro result e s _ _
    trivial

theorem showBatch_keeps {iteration : Nat} :
    Leads (fun s : State σ ρ => tree s.host = L ∧ last s.host = C) (showBatch c iteration batch)
      (fun _ s => tree s.host = L ∧ last s.host = C) Anyhow := by
  refine showBatch_leads (fun _ hs => hs) ?_ fun _ _ _ _ _ _ _ => trivial
  intro d hd s host ⟨htree, hlast⟩ hbatch
  have hkept := ht.batch_keeps d hd iteration batch s.host
  rw [hbatch] at hkept
  exact ⟨hkept.1.trans htree, hkept.2.trans hlast⟩

theorem edit_keeps :
    Leads (fun s : State σ ρ => tree s.host = L ∧ last s.host = C) (edit c batch)
      (fun r s => (r = .ok () → Applied batch L (tree s.host)) ∧ last s.host = C) Anyhow := by
  have hlast : ∀ (s : State σ ρ) r host, tree s.host = L ∧ last s.host = C →
      Batch.apply c.host.write batch s.host = (r, host) → last host = C := by
    intro s r host hs happly
    exact Batch.apply_keeps (K := fun t => last t = C)
      (fun p bytes t ht' => (ht.write_keeps p bytes t).trans ht') happly hs.2
  refine edit_leads ?_ ?_ fun _ _ _ _ _ => trivial
  · intro s paths host hs happly
    refine ⟨fun _ => ?_, hlast s _ host hs happly⟩
    have hsame := Batch.apply_honest ht.write happly
    rw [hs.1] at hsame
    exact ⟨paths, hsame⟩
  · intro s e host hs happly
    exact ⟨by simp, hlast s _ host hs happly⟩

theorem format_weighed :
    Leads (fun s : State σ ρ => Applied batch L (tree s.host) ∧ last s.host = C) (format c)
      (fun _ s => Formatted c.host tree batch L (tree s.host) ∧ last s.host = C) Anyhow := by
  have hcalled : ∀ (s : State σ ρ) r host, Applied batch L (tree s.host) ∧ last s.host = C →
      c.host.call .format s.host = (r, host) →
      Formatted c.host tree batch L (tree host) ∧ last host = C := by
    intro s r host hs hcall
    refine ⟨⟨s.host, hs.1, by rw [hcall]⟩, ?_⟩
    exact (call_last ht (fun _ => Task.noConfusion) hcall).trans hs.2
  refine Leads.bind (R := fun _ s => Formatted c.host tree batch L (tree s.host) ∧
    last s.host = C) (call_success_leads ?_ ?_) ?_
  · intro s host hs hcall
    exact hcalled s _ host hs hcall
  · intro s r host hs hcall _
    exact ⟨fun _ _ => hcalled s r host hs hcall, fun _ => trivial⟩
  · intro answer
    have hsay := fun level message => say_keeps ht (ρ := ρ)
      (F := fun w m => Formatted c.host tree batch L w ∧ m = C) level message
    cases answer with
    | error e => exact hsay _ _
    | ok v =>
        cases v with
        | success => exact Leads.pure fun _ hs => hs
        | failure => exact hsay _ _

theorem commit_weighed :
    Leads (fun s : State σ ρ => Accepted c tree batch L (tree s.host) ∧ last s.host = C)
      (do return if ← commit c then .passed else .error)
      (fun outcome s => Weighed c tree last batch L C outcome s.host) Anyhow := by
  have hanswer : Leads (fun s : State σ ρ => Accepted c tree batch L (tree s.host) ∧
      last s.host = C) (commit c) (fun done s =>
        Weighed c tree last batch L C (if done then .passed else .error) s.host) Anyhow := by
    refine Leads.bind (R := fun answer s => (answer = .ok .success →
      Weighed c tree last batch L C .passed s.host) ∧
      (answer ≠ .ok .success → last s.host = C)) (call_success_leads ?_ ?_) ?_
    · intro s host ⟨haccepted, hlast⟩ hcall
      obtain ⟨htree, hrecorded⟩ := ht.commit _ s.host host hcall
      refine ⟨fun _ => ⟨?_, ?_⟩, fun hne => absurd rfl hne⟩
      · show Accepted c tree batch L (tree host)
        rw [htree]
        exact haccepted
      · intro names
        rw [hrecorded, hlast, htree]
    · intro s r host ⟨_, hlast⟩ hcall hr
      have hlast' : last host = C :=
        (ht.call_keeps _ s.host r host hcall fun _ _ => hr).trans hlast
      exact ⟨fun a ha => ⟨fun heq => absurd heq ha, fun _ => hlast'⟩, fun _ => trivial⟩
    · intro answer
      have hsay := fun level message => say_keeps ht (ρ := ρ) (F := fun _ m => m = C) level message
      cases answer with
      | error e =>
          refine Leads.bind ((hsay _ _).weaken (fun _ hs => hs.2 (by simp)) (fun _ _ hs => hs)
            fun _ _ hs => hs) fun _ => ?_
          exact Leads.pure fun _ hs => hs
      | ok v =>
          cases v with
          | success => exact Leads.pure fun _ hs => hs.1 rfl
          | failure =>
              refine Leads.bind ((hsay _ _).weaken (fun _ hs => hs.2 (by simp))
                (fun _ _ hs => hs) fun _ _ hs => hs) fun _ => ?_
              exact Leads.pure fun _ hs => hs
  exact Leads.bind hanswer fun done => Leads.pure fun _ hs => hs

theorem validate_weighed :
    Leads (fun s : State σ ρ => Applied batch L (tree s.host) ∧ last s.host = C) (validate c)
      (fun outcome s => Weighed c tree last batch L C outcome s.host) Anyhow := by
  have htested : ∀ (s : State σ ρ) r host, Applied batch L (tree s.host) ∧ last s.host = C →
      c.host.call .test s.host = (r, host) →
      Applied batch L (tree host) ∧ last host = C := by
    intro s r host hs hcall
    have htree := ht.test_keeps s.host
    rw [hcall] at htree
    refine ⟨?_, (call_last ht (fun _ => Task.noConfusion) hcall).trans hs.2⟩
    rw [htree]
    exact hs.1
  refine Leads.bind (R := fun _ s => Applied batch L (tree s.host) ∧ last s.host = C)
    (enter_leads fun _ hs => hs) fun _ => ?_
  refine Leads.bind (R := fun _ s => Applied batch L (tree s.host) ∧ last s.host = C)
    (call_success_leads ?_ ?_) ?_
  · intro s host hs hcall
    exact htested s _ host hs hcall
  · intro s r host hs hcall _
    exact ⟨fun _ _ => htested s r host hs hcall, fun _ => trivial⟩
  · intro answer
    cases answer with
    | error e =>
        refine Leads.bind ((say_keeps ht (F := fun _ m => m = C) _ _).weaken (fun _ hs => hs.2)
          (fun _ _ hs => hs) fun _ _ hs => hs) fun _ => ?_
        exact Leads.pure fun _ hs => hs
    | ok v =>
        cases v with
        | failure => exact Leads.pure fun _ hs => hs
        | success =>
            refine Leads.bind (R := fun _ s => Applied batch L (tree s.host) ∧ last s.host = C)
              (enter_leads fun _ hs => hs) fun _ => ?_
            cases hformat : c.settings.format with
            | true =>
                refine Leads.bind (format_weighed ht) fun _ => ?_
                refine (commit_weighed ht).weaken (fun s hs => ⟨?_, hs.2⟩) (fun _ _ hs => hs)
                  fun _ _ hs => hs
                rw [Accepted, if_pos hformat]
                exact hs.1
            | false =>
                refine (commit_weighed ht).weaken (fun s hs => ⟨?_, hs.2⟩) (fun _ _ hs => hs)
                  fun _ _ hs => hs
                rw [Accepted, if_neg (by rw [hformat]; exact Bool.false_ne_true)]
                exact hs.1

theorem attempt_weighed :
    Leads (fun s : State σ ρ => tree s.host = L ∧ last s.host = C) (attempt c batch)
      (fun outcome s => Weighed c tree last batch L C outcome s.host) Anyhow := by
  refine Leads.bind (R := fun _ s => tree s.host = L ∧ last s.host = C)
    (enter_leads fun _ hs => hs) fun _ => ?_
  refine Leads.bind (edit_keeps ht) fun answer => ?_
  cases answer with
  | ok _ =>
      exact (validate_weighed ht).weaken (fun _ hs => ⟨hs.1 rfl, hs.2⟩) (fun _ _ hs => hs)
        fun _ _ hs => hs
  | error e =>
      refine Leads.bind ((say_keeps ht (F := fun _ m => m = C) _ _).weaken (fun _ hs => hs.2)
        (fun _ _ hs => hs) fun _ _ hs => hs) fun _ => ?_
      exact Leads.pure fun _ hs => hs

omit ht in
theorem Parted.congr {outcome : Outcome} {s t : σ} (h : Parted c tree last batch L C outcome s)
    (htree : tree t = tree s) (hlast : last t = last s) :
    Parted c tree last batch L C outcome t := by
  cases outcome <;> simp only [Parted, htree, hlast] at h ⊢ <;> exact h

theorem finish_parted {iteration : Nat} {outcome : Outcome} :
    Leads (fun s : State σ ρ => Weighed c tree last batch L C outcome s.host)
      (finish c iteration outcome batch)
      (fun o s => o = outcome ∧ Parted c tree last batch L C outcome s.host) Anyhow := by
  have hrest : Leads (fun s : State σ ρ => Parted c tree last batch L C outcome s.host) (do
      enter .clean
      modify fun s => { s with stats := s.stats.count outcome batch.length }
      say c .debug s!"Iteration {iteration}: {outcome.name}"
      showStatus c iteration outcome
      return outcome)
      (fun o s => o = outcome ∧ Parted c tree last batch L C outcome s.host) Anyhow := by
    refine Leads.bind (R := fun _ s => Parted c tree last batch L C outcome s.host)
      (enter_leads fun _ hs => hs) fun _ => ?_
    refine Leads.bind (R := fun _ s => Parted c tree last batch L C outcome s.host)
      (Leads.modify fun _ hs => hs) fun _ => ?_
    refine Leads.bind (R := fun _ s => Parted c tree last batch L C outcome s.host)
      (say_leads fun s line hs => ?_) fun _ => ?_
    · obtain ⟨htree, hlast⟩ := ht.log_keeps line s.host
      exact hs.congr htree hlast
    refine Leads.bind (R := fun _ s => Parted c tree last batch L C outcome s.host)
      (showStatus_leads (fun _ hs => hs) fun d hd s hs => ?_) fun _ => ?_
    · obtain ⟨htree, hlast⟩ := ht.status_keeps d hd iteration outcome s.host
      exact hs.congr htree hlast
    exact Leads.pure fun _ hs => ⟨rfl, hs⟩
  have hdiscard : ∀ s s' : σ, c.host.call .discard s = (.ok .success, s') → ∀ names,
      (tree s').bytes? names = (last s names).or ((tree s).bytes? names) :=
    fun s s' hcall => ht.restore .discard s s' hcall
  unfold finish
  cases outcome with
  | passed => exact hrest
  | failed =>
      refine Leads.bind (R := fun _ s => Weighed c tree last batch L C .failed s.host)
        (enter_leads fun _ hs => hs) fun _ => ?_
      refine Leads.bind (restore_leads ?_ fun _ _ _ _ _ _ _ => trivial) fun _ => hrest
      intro s host ⟨happlied, hlast⟩ hcall
      refine ⟨tree s.host, happlied, fun names => ?_⟩
      rw [hdiscard s.host host hcall names, hlast]
  | error =>
      refine Leads.bind (R := fun _ s => Weighed c tree last batch L C .error s.host)
        (enter_leads fun _ hs => hs) fun _ => ?_
      refine Leads.bind (restore_leads ?_ fun _ _ _ _ _ _ _ => trivial) fun _ => hrest
      intro s host hlast hcall names bytes hbytes
      rw [hdiscard s.host host hcall names, show last s.host = C from hlast, hbytes]
      rfl

/-- One iteration, from any state; `start` is where the reset leaves it. -/
theorem iterate_parted {s : State σ ρ} {start : σ} (hstart : start = (c.host.call .reset s.host).2) :
    Leads (fun t => t = s) (iterate c)
      (fun outcome t => (∀ names bytes, last start names = some bytes →
          (tree start).bytes? names = some bytes) ∧
        ∃ batch, (Sampling.sample c.parser c.source (tree start) c.crate
          c.settings.minBatch.val c.settings.maxBatch.val s.random).batch = .ok batch ∧
        Parted c tree last batch (tree start) (last start) outcome t.host) Anyhow := by
  refine Leads.get fun t ht' => ?_
  refine (Leads.bind (R := fun _ t => (∀ names bytes, last start names = some bytes →
    (tree start).bytes? names = some bytes) ∧
    (tree t.host = tree start ∧ last t.host = last start) ∧ t.random = s.random)
    (restore_leads ?_ fun _ _ _ _ _ _ _ => trivial) fun _ => Leads.given fun hrestored => ?_ :
    Leads (fun t => t = s) _ _ _) t ht'
  · rintro t host rfl hcall
    have hhost : start = host := by rw [hstart, show c.host.call .reset t.host = _ from hcall]
    refine ⟨?_, ⟨by rw [hhost], by rw [hhost]⟩, rfl⟩
    intro names bytes hbytes
    rw [hhost, call_last ht (by intro message; exact Task.noConfusion) hcall] at hbytes
    rw [hhost, ht.restore .reset t.host host hcall, hbytes]
    rfl
  refine Leads.bind (R := fun _ t => (tree t.host = tree start ∧ last t.host = last start) ∧
    t.random = s.random) (enter_leads fun _ ht' => ht') fun _ => ?_
  refine Leads.bind (draw_keeps ht) fun batch => Leads.given fun hbatch => ?_
  refine Leads.bind (showBatch_keeps ht) fun _ => ?_
  refine Leads.bind (attempt_weighed ht) fun outcome => ?_
  refine (finish_parted ht).weaken (fun _ ht' => ht') ?_ fun _ _ ht' => ht'
  rintro o u ⟨rfl, hu⟩
  exact ⟨hrestored, batch, hbatch, hu⟩

end

/-- The files of a batch, by the names at which they stand. -/
def Wrote (batch : List Candidate) (w : Workspace) (names : List String) : Prop :=
  ∃ p ∈ Batch.paths batch, w.locate p = .ok names

section

variable {σ ρ : Type} {c : Setup σ ρ} {tree : σ → Workspace}
  {last : σ → List String → Option (List UInt8)}

theorem Accepted.isFile (ht : Tracking c.host tree last) {batch : List Candidate}
    {L N : Workspace} (h : Accepted c tree batch L N) {names : List String}
    (hwrote : Wrote batch L names) : (N.bytes? names).isSome = true := by
  obtain ⟨p, hp, hnames⟩ := hwrote
  unfold Accepted at h
  split at h
  · obtain ⟨s, happlied, rfl⟩ := h
    rw [ht.format_keeps]
    exact happlied.isFile hp hnames
  · exact h.isFile hp hnames

/-- **A batch is all or nothing in the files of the last commit, and in no others.**  `start` is
where the reset of the iteration leaves things.  In a file of the last commit nothing is left of a
batch that does not pass, and the file is part of the new commit if the batch passes.  Of the files
that the batch wrote, one that is not part of the last commit keeps its edits if the tests fail, and
is not part of the new commit if they pass. -/
theorem iterate_atomic (ht : Tracking c.host tree last) (s : State σ ρ) {outcome : Outcome}
    {s' : State σ ρ} (hrun : (iterate c).run.run s = (.ok outcome, s')) {start : σ}
    (hstart : start = (c.host.call .reset s.host).2) :
    ∃ batch, (Sampling.sample c.parser c.source (tree start) c.crate c.settings.minBatch.val
        c.settings.maxBatch.val s.random).batch = .ok batch ∧
      (outcome ≠ .passed → ∀ names, (last start names).isSome = true →
        (tree s'.host).bytes? names = (tree start).bytes? names) ∧
      (outcome = .failed → ∃ applied, Applied batch (tree start) applied ∧
        ∀ names, last start names = none →
          (tree s'.host).bytes? names = applied.bytes? names) ∧
      (outcome = .passed → ∀ names, Wrote batch (tree start) names →
        ((last s'.host names).isSome = true ↔ (last start names).isSome = true)) := by
  obtain ⟨hrestored, batch, hbatch, hparted⟩ := (iterate_parted ht hstart).ok rfl hrun
  refine ⟨batch, hbatch, ?_, ?_, ?_⟩
  · intro houtcome names htracked
    obtain ⟨bytes, hbytes⟩ := Option.isSome_iff_exists.mp htracked
    rw [hrestored names bytes hbytes]
    cases outcome with
    | passed => exact absurd rfl houtcome
    | failed =>
        obtain ⟨applied, -, hfiles⟩ := hparted
        rw [hfiles names, hbytes]
        rfl
    | error => exact hparted names bytes hbytes
  · rintro rfl
    obtain ⟨applied, happlied, hfiles⟩ := hparted
    refine ⟨applied, happlied, fun names huntracked => ?_⟩
    rw [hfiles names, huntracked]
    rfl
  · rintro rfl names hwrote
    obtain ⟨haccepted, hlast⟩ := hparted
    have hfile := haccepted.isFile ht hwrote
    rw [hlast names]
    cases last start names with
    | none => simp
    | some bytes => simpa using hfile

end

/-! ### A file that is not under version control -/

/-- The workspace with files put back. -/
def putBack (saved : List (List String × List UInt8)) (w : Workspace) : Workspace :=
  saved.foldr (fun file w => w.put file.1 (.file file.2)) w

/-- The same files as they are now. -/
def asNow (w : Workspace) (saved : List (List String × List UInt8)) :
    List (List String × List UInt8) :=
  saved.filterMap fun file => (w.bytes? file.1).map fun bytes => (file.1, bytes)

/-- A host that keeps the files and what was last committed; the tests all end the same way. -/
def history (tests : Verdict) : Host (Workspace × List (List String × List UInt8)) where
  survey s := (s.1, s)
  write p bytes s := ((Workspace.writer p bytes s.1).1, ((Workspace.writer p bytes s.1).2, s.2))
  call task s := match task with
    | .reset => (.ok .success, (putBack s.2 s.1, s.2))
    | .discard => (.ok .success, (putBack s.2 s.1, s.2))
    | .commit _ => (.ok .success, (s.1, asNow s.1 s.2))
    | .test => (.ok tests, s)
    | .format => (.ok .success, s)
  log _ s := s
  display := none

/-- The bytes of a file of the last commit. -/
def committedBytes (s : Workspace × List (List String × List UInt8)) (names : List String) :
    Option (List UInt8) :=
  if names = [] then none else s.2.lookup names

theorem bytes?_putBack {names : List String} (h : names ≠ []) (w : Workspace)
    (saved : List (List String × List UInt8)) :
    (putBack saved w).bytes? names = (saved.lookup names).or (w.bytes? names) := by
  induction saved with
  | nil => rfl
  | cons file rest ih =>
      obtain ⟨place, bytes⟩ := file
      show ((putBack rest w).put place (.file bytes)).bytes? names = _
      by_cases hplace : names = place
      · subst hplace
        rw [Workspace.bytes?, Workspace.entry?_put_self h, List.lookup_cons_self]
        rfl
      · have hne : (names == place) = false := beq_eq_false_iff_ne.mpr hplace
        rw [Workspace.bytes?, Workspace.entry?_put_of_ne hplace, ← Workspace.bytes?, ih,
          List.lookup_cons, hne]

theorem lookup_asNow (w : Workspace) (names : List String)
    (saved : List (List String × List UInt8)) :
    (asNow w saved).lookup names = (saved.lookup names).bind fun _ => w.bytes? names := by
  induction saved with
  | nil => rfl
  | cons file rest ih =>
      obtain ⟨place, old⟩ := file
      by_cases hplace : names = place
      · subst hplace
        rw [List.lookup_cons_self, Option.bind_some]
        cases hbytes : w.bytes? names with
        | some bytes => simp [asNow, hbytes]
        | none =>
            rw [hbytes] at ih
            simpa [asNow, hbytes] using ih
      · have hne : (names == place) = false := beq_eq_false_iff_ne.mpr hplace
        rw [List.lookup_cons, hne, ← ih]
        cases hbytes : w.bytes? place with
        | some bytes => simp [asNow, hbytes, List.lookup_cons, hne]
        | none => simp [asNow, hbytes]

theorem history_tracking (tests : Verdict) : Tracking (history tests) Prod.fst committedBytes where
  survey _ := rfl
  survey_keeps _ := ⟨rfl, rfl⟩
  write p bytes s s' h := by
    refine Batch.writer_honest p bytes s.1 s'.1 ?_
    obtain ⟨hanswer, rfl⟩ := Prod.mk.inj h
    exact Prod.ext hanswer rfl
  write_keeps _ _ _ := rfl
  restore how s s' h names := by
    have hs' : s' = (putBack s.2 s.1, s.2) := by
      cases how <;> exact (Prod.mk.inj h).2.symm
    rw [hs', committedBytes]
    by_cases hnames : names = []
    · subst hnames
      rfl
    · rw [if_neg hnames]
      exact bytes?_putBack hnames s.1 s.2
  commit message s s' h := by
    rw [← (Prod.mk.inj h).2]
    refine ⟨rfl, fun names => ?_⟩
    unfold committedBytes
    split
    · rfl
    · exact lookup_asNow s.1 names s.2
  call_keeps task s r s' h hcommit := by
    cases task with
    | commit message => exact absurd (Prod.mk.inj h).1.symm (hcommit message rfl)
    | test => rw [← (Prod.mk.inj h).2]
    | format => rw [← (Prod.mk.inj h).2]
    | reset => rw [← (Prod.mk.inj h).2]; rfl
    | discard => rw [← (Prod.mk.inj h).2]; rfl
  test_keeps _ := rfl
  format_keeps _ _ := rfl
  log_keeps _ _ := ⟨rfl, rfl⟩
  batch_keeps _ hd := nomatch hd
  status_keeps _ hd := nomatch hd

/-- The campaign over the small crate at such a host. -/
def historyCampaign (tests : Verdict) : Setup (Workspace × List (List String × List UInt8)) Unit :=
  ⟨Sampling.smallCrate, .default, Rust.parse, Sampling.first, history tests⟩

/-- The small crate with some of its files in the last commit. -/
def historyStart (saved : List (List String × List UInt8)) :
    State (Workspace × List (List String × List UInt8)) Unit where
  random := ()
  host := (Sampling.smallFiles, saved)

/-- The tests fail: the source file, as part of the last commit, is as it was after the reset. -/
theorem iterate_atomic_history :
    ∃ s', (iterate (historyCampaign .failure)).run.run (historyStart Sampling.smallFiles.files) =
        (.ok .failed, s') ∧
      s'.host.1.bytes? [sourceDirectory, "lib.rs"] =
        (putBack Sampling.smallFiles.files Sampling.smallFiles).bytes?
          [sourceDirectory, "lib.rs"] := by
  have heval : ((iterate (historyCampaign .failure)).run.run
      (historyStart Sampling.smallFiles.files)).1.toOption = some .failed := by
    decide +kernel
  cases hrun : (iterate (historyCampaign .failure)).run.run
      (historyStart Sampling.smallFiles.files) with
  | mk answer s' =>
      rw [hrun] at heval
      cases answer with
      | error e => cases heval
      | ok outcome =>
          obtain rfl : outcome = .failed := Option.some.inj heval
          obtain ⟨batch, -, hrestored, -⟩ :=
            iterate_atomic (history_tracking .failure) (historyStart _) hrun rfl
          exact ⟨s', rfl, hrestored (by decide) _ (by decide +kernel)⟩

/-- Every file that a batch wrote is left as it was unless the batch passes, and is part of the new
commit if it does. -/
def AllOrNothing {σ ρ : Type} (c : Setup σ ρ) (tree : σ → Workspace)
    (last : σ → List String → Option (List UInt8)) (s : State σ ρ) : Prop :=
  ∀ outcome s' batch, (iterate c).run.run s = (.ok outcome, s') →
    (Sampling.sample c.parser c.source (tree (c.host.call .reset s.host).2) c.crate
      c.settings.minBatch.val c.settings.maxBatch.val s.random).batch = .ok batch →
    ∀ names, Wrote batch (tree (c.host.call .reset s.host).2) names →
      (outcome ≠ .passed → (tree s'.host).bytes? names =
        (tree (c.host.call .reset s.host).2).bytes? names) ∧
      (outcome = .passed → (last s'.host names).isSome = true)

/-- The last commit without the source file. -/
def manifestOnly : List (List String × List UInt8) := [([manifestName], [])]

/-- Whatever the tests say, the batch writes the source file. -/
theorem wrote_source (tests : Verdict) :
    ∃ batch, (Sampling.sample Rust.parse Sampling.first
        ((history tests).call .reset (historyStart manifestOnly).host).2.1 Sampling.smallCrate
        Settings.default.minBatch.val Settings.default.maxBatch.val ()).batch = .ok batch ∧
      Wrote batch ((history tests).call .reset (historyStart manifestOnly).host).2.1
        [sourceDirectory, "lib.rs"] := by
  have heval : ((Sampling.sample Rust.parse Sampling.first
      ((history tests).call .reset (historyStart manifestOnly).host).2.1 Sampling.smallCrate
      Settings.default.minBatch.val Settings.default.maxBatch.val ()).batch.toOption.any fun batch =>
        (Batch.paths batch).any fun p =>
          (((history tests).call .reset (historyStart manifestOnly).host).2.1.locate p).toOption ==
            some [sourceDirectory, "lib.rs"]) = true := by
    cases tests <;> decide +kernel
  cases hbatch : (Sampling.sample Rust.parse Sampling.first
      ((history tests).call .reset (historyStart manifestOnly).host).2.1 Sampling.smallCrate
      Settings.default.minBatch.val Settings.default.maxBatch.val ()).batch with
  | error e => simp [hbatch, Except.toOption] at heval
  | ok batch =>
      rw [hbatch] at heval
      obtain ⟨p, hp, hlocate⟩ := List.any_eq_true.mp heval
      refine ⟨batch, rfl, p, hp, ?_⟩
      cases hnames : ((history tests).call .reset (historyStart manifestOnly).host).2.1.locate p with
      | error e => simp [hnames, Except.toOption] at hlocate
      | ok names => simpa [hnames, Except.toOption] using hlocate

/-- The file keeps its edit, and no commit has it. -/
theorem source_edited (tests : Verdict) :
    ∃ s', (iterate (historyCampaign tests)).run.run (historyStart manifestOnly) =
        (.ok (if tests = .success then .passed else .failed), s') ∧
      s'.host.1.bytes? [sourceDirectory, "lib.rs"] ≠
        ((history tests).call .reset (historyStart manifestOnly).host).2.1.bytes?
          [sourceDirectory, "lib.rs"] ∧
      committedBytes s'.host [sourceDirectory, "lib.rs"] = none := by
  have heval : (((iterate (historyCampaign tests)).run.run (historyStart manifestOnly)).1.toOption,
      decide (((iterate (historyCampaign tests)).run.run (historyStart manifestOnly)).2.host.1.bytes?
        [sourceDirectory, "lib.rs"] =
          ((history tests).call .reset (historyStart manifestOnly).host).2.1.bytes?
            [sourceDirectory, "lib.rs"]),
      committedBytes ((iterate (historyCampaign tests)).run.run
        (historyStart manifestOnly)).2.host [sourceDirectory, "lib.rs"]) =
      (some (if tests = .success then .passed else .failed), false, none) := by
    cases tests <;> decide +kernel
  cases hrun : (iterate (historyCampaign tests)).run.run (historyStart manifestOnly) with
  | mk answer s' =>
      rw [hrun] at heval
      simp only [Prod.mk.injEq, decide_eq_false_iff_not] at heval
      obtain ⟨hanswer, hbytes, hcommitted⟩ := heval
      cases answer with
      | error e => cases hanswer
      | ok outcome => exact ⟨s', by rw [← Option.some.inj hanswer], hbytes, hcommitted⟩

/-- **A batch is not all or nothing in a file that is not under version control.**  The tests fail
and the file keeps its edit; the tests pass and the file is not part of the commit. -/
theorem iterate_not_atomic :
    (Tracking (history .failure) Prod.fst committedBytes ∧
      ¬AllOrNothing (historyCampaign .failure) Prod.fst committedBytes
        (historyStart manifestOnly)) ∧
    Tracking (history .success) Prod.fst committedBytes ∧
      ¬AllOrNothing (historyCampaign .success) Prod.fst committedBytes
        (historyStart manifestOnly) := by
  refine ⟨⟨history_tracking .failure, ?_⟩, history_tracking .success, ?_⟩
  · intro h
    obtain ⟨batch, hbatch, hwrote⟩ := wrote_source .failure
    obtain ⟨s', hrun, hedited, -⟩ := source_edited .failure
    exact hedited ((h _ s' batch hrun hbatch _ hwrote).1 (by decide))
  · intro h
    obtain ⟨batch, hbatch, hwrote⟩ := wrote_source .success
    obtain ⟨s', hrun, -, hcommitted⟩ := source_edited .success
    have hrecorded := (h _ s' batch hrun hbatch _ hwrote).2 (by decide)
    rw [hcommitted] at hrecorded
    cases hrecorded

end Tighten.Campaign
