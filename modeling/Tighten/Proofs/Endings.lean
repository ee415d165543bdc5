import Tighten.Proofs.Requests
import Tighten.Proofs.Verbatim

/-
How the program ends.

Words that cannot be read are complained about and nothing else is done, with status 2.  A run that
comes to its campaign ends as the campaign does: with status 0 when it is through, and with status
130 when it was interrupted, after a warning and the counters.  Whatever else is reported on the way
ends with status 1.  So a status of 2 or of 130 tells what happened, and no other part of the
program exits with either.

Nothing in the warning or the table of counters is markup, so these are printed by any console.
-/
namespace Tighten

namespace Console

variable {rules : Rules}

/-! ### The table of counters -/

theorem plainText_of_plain {text : List Char} (h : ∀ c ∈ text, isPlain c = true) :
    plainText rules text = .ok text :=
  (unmarked_of_plain h).printPieces_eq 0 []

/-- A table is printed if nothing in its cells is markup. -/
theorem exists_table (title : String) (columns : List Column) {rows : List (List String)}
    (h : ∀ row ∈ rows, ∀ cell ∈ row, ∀ c ∈ cell.toList, isPlain c = true) (rules : Rules) :
    ∃ text, table rules title columns rows = .ok text := by
  have hrow : ∀ row ∈ rows, (row.mapM fun cell => plainText rules cell.toList) =
      .ok (row.map String.toList) :=
    fun row hrow => mapM_eq_ok fun cell hcell => plainText_of_plain (h row hrow cell hcell)
  unfold table
  rw [mapM_eq_ok hrow]
  exact ⟨_, rfl⟩

/-- The counters are printed by any console. -/
theorem exists_stats (s : Stats) (rules : Rules) : ∃ text, stats rules s = .ok text := by
  have hcells : ∀ (word : String) (n : Nat), word.toList.all isPlain = true →
      ∀ cell ∈ [word, toString n], ∀ c ∈ cell.toList, isPlain c = true := by
    intro word n hword cell hcell
    rcases List.mem_pair.mp hcell with rfl | rfl
    · exact List.all_eq_true.mp hword
    · exact isPlain_toString_nat n
  refine exists_table _ _ (fun row hrow => ?_) rules
  simp only [List.mem_cons, List.not_mem_nil, or_false] at hrow
  rcases hrow with rfl | rfl | rfl | rfl | rfl <;> exact hcells _ _ (by decide)

end Console

namespace Program

variable {σ ρ α β : Type} {sys : System σ} {statuses : List Nat}

/-! ### Exit statuses -/

/-- Wherever a part of the program exits, it does with one of these statuses. -/
def ExitsWith (statuses : List Nat) (x : Action σ α) : Prop :=
  ∀ s n s', x.run.run s = (.error (.exit n), s') → n ∈ statuses

section

variable {x : Action σ α}

theorem ExitsWith.mono {more : List Nat} (h : ExitsWith statuses x) (hsub : statuses ⊆ more) :
    ExitsWith more x :=
  fun s n s' hrun => hsub (h s n s' hrun)

theorem ExitsWith.bind {f : α → Action σ β} (hx : ExitsWith statuses x)
    (hf : ∀ a, ExitsWith statuses (f a)) : ExitsWith statuses (x >>= f) := by
  intro s n s' h
  rcases run_bind_eq_error h with h | ⟨a, middle, -, h⟩
  · exact hx s n s' h
  · exact hf a middle n s' h

theorem exitsWith_pure (a : α) : ExitsWith statuses (pure a : Action σ α) := by
  intro s n s' h
  cases h

theorem exitsWith_get : ExitsWith statuses (get : Action σ σ) := by
  intro s n s' h
  cases h

theorem exitsWith_modify (f : σ → σ) : ExitsWith statuses (modify f : Action σ Unit) := by
  intro s n s' h
  cases h

theorem exitsWith_escape (e : Escape) :
    ExitsWith statuses (throw (.escape e) : Action σ α) := by
  intro s n s' h
  cases h

theorem exitsWith_exit {n : Nat} (h : n ∈ statuses) :
    ExitsWith statuses (throw (.exit n) : Action σ α) := by
  intro s m s' hrun
  cases hrun
  exact h

end

theorem exitsWith_put (sys : System σ) (text : Except Console.MarkupError String) :
    ExitsWith statuses (put sys text) := by
  cases text with
  | ok text => exact exitsWith_modify _
  | error e => exact exitsWith_escape _

theorem exitsWith_tell (sys : System σ) (tone : Console.Tone) (text : String) :
    ExitsWith statuses (tell sys tone text) :=
  exitsWith_put sys _

theorem refuse_exitsWith (sys : System σ) (message : String) :
    ExitsWith [1] (refuse sys message : Action σ α) :=
  (exitsWith_tell sys _ _).bind fun _ => exitsWith_exit List.mem_cons_self

theorem openCrate_exitsWith (sys : System σ) (start : Start) (directory : String) :
    ExitsWith [1] (openCrate sys start directory) := by
  unfold openCrate
  refine exitsWith_get.bind fun s => ?_
  split
  · exact exitsWith_pure _
  · exact refuse_exitsWith sys _

theorem settingsFor_exitsWith (sys : System σ) (crate : Crate) (r : CommandLine.RunRequest) :
    ExitsWith [1] (settingsFor sys crate r) := by
  unfold settingsFor
  refine exitsWith_get.bind fun s => ?_
  split
  · exact refuse_exitsWith sys _
  · exact exitsWith_escape _
  · split
    · exact exitsWith_pure _
    · exact refuse_exitsWith sys _

theorem list_exitsWith (sys : System σ) (parser : Parser) (start : Start) (directory : String) :
    ExitsWith [1] (list sys parser start directory) := by
  unfold list
  refine (openCrate_exitsWith sys start directory).bind fun crate => ?_
  refine exitsWith_get.bind fun s => ?_
  split
  · exact exitsWith_escape _
  · refine (exitsWith_modify _).bind fun _ => ?_
    split
    · exact exitsWith_tell sys _ _
    · exact (exitsWith_put sys _).bind fun _ => exitsWith_tell sys _ _

/-- Only an interrupt ends with the status of one. -/
theorem conclude_exit {stats : Stats} {result : Except Campaign.Failure Bool} {s s' : σ} {n : Nat}
    (h : (conclude sys stats result).run.run s = (.error (.exit n), s')) :
    result = .error .cancelled ∧ n = interruptedStatus ∨
      result ≠ .error .cancelled ∧ n = 1 := by
  unfold conclude at h
  split at h
  · have hnever : ExitsWith [] (put sys (Console.stats sys.libraries.console stats)) :=
      exitsWith_put sys _
    exact absurd (hnever s n s' h) List.not_mem_nil
  · cases h
  · refine Or.inl ⟨rfl, List.mem_singleton.mp ?_⟩
    refine ExitsWith.bind (exitsWith_tell sys _ _) (fun _ => ?_) s n s' h
    exact (exitsWith_put sys _).bind fun _ => exitsWith_exit List.mem_cons_self
  · next failure hother =>
    refine Or.inr ⟨?_, List.mem_singleton.mp ?_⟩
    · intro hcancelled
      exact hother (Except.error.inj hcancelled)
    · have hreport : ExitsWith [1] (do
          tell sys .error failure.message
          put sys (Console.stats sys.libraries.console stats)
          throw (.exit 1) : Action σ Unit) :=
        (exitsWith_tell sys _ _).bind fun _ => (exitsWith_put sys _).bind fun _ =>
          exitsWith_exit List.mem_cons_self
      dsimp only at h
      split at h
      · exact (exitsWith_escape _).bind (fun _ => hreport) s n s' h
      · exact hreport s n s' h

theorem conclude_ok {stats : Stats} {result : Except Campaign.Failure Bool} {s s' : σ}
    (h : (conclude sys stats result).run.run s = (.ok (), s')) : result = .ok true := by
  unfold conclude at h
  split at h
  · rfl
  · cases h
  · obtain ⟨_, _, _, h⟩ := run_bind_eq_ok h
    obtain ⟨_, _, _, h⟩ := run_bind_eq_ok h
    cases h
  · dsimp only at h
    split at h
    · obtain ⟨_, _, h, _⟩ := run_bind_eq_ok h
      cases h
    · obtain ⟨_, _, _, h⟩ := run_bind_eq_ok h
      obtain ⟨_, _, _, h⟩ := run_bind_eq_ok h
      cases h

/-- An interrupted campaign is concluded with a warning and its counters. -/
theorem conclude_cancelled (sys : System σ) (stats : Stats) (s : σ) :
    ∃ warning counters,
      Console.message sys.libraries.console .warning
        "Interrupted; the working tree may hold uncommitted edits" = .ok warning ∧
      Console.stats sys.libraries.console stats = .ok counters ∧
      (conclude sys stats (.error .cancelled)).run.run s =
        (.error (.exit interruptedStatus), sys.print counters (sys.print warning s)) := by
  have hplain : "Interrupted; the working tree may hold uncommitted edits".toList.all
      Console.isPlain = true := by decide
  obtain ⟨counters, hcounters⟩ := Console.exists_stats stats sys.libraries.console
  have hwarning := @Console.message_of_unmarked sys.libraries.console _
    (Console.unmarked_of_plain (List.all_eq_true.mp hplain)) .warning
  refine ⟨_, counters, hwarning, hcounters, ?_⟩
  unfold conclude tell
  rw [hwarning, hcounters]
  rfl

/-- A campaign that is through is concluded with its counters. -/
theorem conclude_done (sys : System σ) (stats : Stats) (s : σ) :
    ∃ counters, Console.stats sys.libraries.console stats = .ok counters ∧
      (conclude sys stats (.ok true)).run.run s = (.ok (), sys.print counters s) := by
  obtain ⟨counters, hcounters⟩ := Console.exists_stats stats sys.libraries.console
  refine ⟨counters, hcounters, ?_⟩
  unfold conclude
  rw [hcounters]
  rfl

/-! ### A run -/

variable {parser : Parser} {source : RandomSource ρ} {seeded : Int → ρ} {rounds : Nat}
  {start : Start} {r : CommandLine.RunRequest} {s s' : σ} {ending : Ending}

theorem openCrate_ok {directory : String} {crate : Crate}
    (h : (openCrate sys start directory).run.run s = (.ok crate, s')) : s' = s := by
  unfold openCrate at h
  rw [run_get_bind] at h
  split at h
  · cases h
    rfl
  · obtain ⟨a, middle, -, hthrow⟩ := run_bind_eq_ok h
    cases hthrow

theorem settingsFor_ok {crate : Crate} {settings : Settings}
    (h : (settingsFor sys crate r).run.run s = (.ok settings, s')) : s' = s := by
  have hrefuse : ∀ message, (refuse sys message : Action σ Settings).run.run s ≠
      (.ok settings, s') := by
    intro message h
    obtain ⟨a, middle, -, hthrow⟩ := run_bind_eq_ok h
    cases hthrow
  unfold settingsFor at h
  rw [run_get_bind] at h
  split at h
  · exact absurd h (hrefuse _)
  · cases h
  · split at h
    · cases h
      rfl
    · exact absurd h (hrefuse _)

/-- The campaign of a run in a crate with some settings. -/
def campaignFor (sys : System σ) (parser : Parser) (source : RandomSource ρ) (start : Start)
    (r : CommandLine.RunRequest) (crate : Crate) (settings : Settings) : Campaign.Setup σ ρ where
  crate
  settings
  parser
  source
  host := hostFor sys (toolsFor start settings) crate settings
    (if r.verbose then .debug else .warning)

/-- What the random choices start from, and the system once that is known. -/
def seedFor (sys : System σ) (settings : Settings) (s : σ) : Int × σ :=
  match settings.seed with
  | some seed => (seed, s)
  | none => sys.freshSeed s

/-- The run comes to its campaign, which gives a result: there is a crate, its settings are in
order, and it could be announced. -/
def ComesTo (sys : System σ) (parser : Parser) (source : RandomSource ρ) (seeded : Int → ρ)
    (rounds : Nat) (start : Start) (r : CommandLine.RunRequest) (s : σ)
    (result : Except Campaign.Failure Bool) (after : Campaign.State σ ρ) : Prop :=
  ∃ crate settings announced,
    (openCrate sys start r.directory).run.run s = (.ok crate, s) ∧
    (settingsFor sys crate r).run.run s = (.ok settings, s) ∧
    (tell sys .info s!"Mutating {crate.root.toText}").run.run s = (.ok (), announced) ∧
    (Campaign.run (campaignFor sys parser source start r crate settings)
        ((settings.maxIterations.map (·.val)).getD rounds)).run.run
      { random := seeded (seedFor sys settings announced).1
        host := (seedFor sys settings announced).2 } = (result, after)

/-- A run that comes to its campaign concludes with what the campaign gives. -/
theorem ComesTo.run_eq {result : Except Campaign.Failure Bool} {after : Campaign.State σ ρ}
    (h : ComesTo sys parser source seeded rounds start r s result after) :
    (run sys parser source seeded rounds start r).run.run s =
      (conclude sys after.stats result).run.run after.host := by
  obtain ⟨crate, settings, announced, hcrate, hsettings, htell, hcampaign⟩ := h
  unfold run
  rw [run_bind_ok hcrate, run_bind_ok hsettings, run_bind_ok htell]
  cases hseed : settings.seed with
  | some seed =>
      have hpure : (pure seed : Action σ Int).run.run announced = (.ok seed, announced) := rfl
      simp only [seedFor, campaignFor, hseed] at hcampaign ⊢
      rw [run_bind_ok hpure, run_get_bind, hcampaign]
      rfl
  | none =>
      have hfresh : (modifyGet sys.freshSeed : Action σ Int).run.run announced =
          (.ok (sys.freshSeed announced).1, (sys.freshSeed announced).2) := rfl
      simp only [seedFor, campaignFor, hseed] at hcampaign ⊢
      rw [run_bind_ok hfresh, run_get_bind, hcampaign]
      rfl

/-- A run comes to its campaign, or something before it ends it with status 1 or unreported. -/
theorem run_cases (sys : System σ) (parser : Parser) (source : RandomSource ρ) (seeded : Int → ρ)
    (rounds : Nat) (start : Start) (r : CommandLine.RunRequest) (s : σ) :
    (∃ ending s', (run sys parser source seeded rounds start r).run.run s = (.error ending, s') ∧
        ∀ n, ending = .exit n → n = 1) ∨
      ∃ result after, ComesTo sys parser source seeded rounds start r s result after := by
  rcases hcrate : (openCrate sys start r.directory).run.run s with ⟨opened, s₁⟩
  cases opened with
  | error ending =>
      refine Or.inl ⟨ending, s₁, run_bind_error hcrate, ?_⟩
      rintro n rfl
      exact List.mem_singleton.mp (openCrate_exitsWith sys start _ _ _ _ hcrate)
  | ok crate =>
      obtain rfl := openCrate_ok hcrate
      rcases hsettings : (settingsFor sys crate r).run.run s₁ with ⟨read, s₂⟩
      cases read with
      | error ending =>
          refine Or.inl ⟨ending, s₂, (run_bind_ok hcrate).trans (run_bind_error hsettings), ?_⟩
          rintro n rfl
          exact List.mem_singleton.mp (settingsFor_exitsWith sys crate r _ _ _ hsettings)
      | ok settings =>
          obtain rfl := settingsFor_ok hsettings
          rcases htell : (tell sys .info s!"Mutating {crate.root.toText}").run.run s₂ with
            ⟨told, announced⟩
          cases told with
          | error ending =>
              refine Or.inl ⟨ending, announced, (run_bind_ok hcrate).trans
                ((run_bind_ok hsettings).trans (run_bind_error htell)), ?_⟩
              have hnever : ExitsWith [] (tell sys .info s!"Mutating {crate.root.toText}") :=
                exitsWith_tell sys _ _
              rintro n rfl
              exact absurd (hnever _ _ _ htell) List.not_mem_nil
          | ok =>
              exact Or.inr ⟨_, _, crate, settings, announced, hcrate, hsettings, htell, rfl⟩

theorem run_exitsWith (sys : System σ) (parser : Parser) (source : RandomSource ρ)
    (seeded : Int → ρ) (rounds : Nat) (start : Start) (r : CommandLine.RunRequest) :
    ExitsWith [1, interruptedStatus] (run sys parser source seeded rounds start r) := by
  intro s n s' h
  rcases run_cases sys parser source seeded rounds start r s with
    ⟨ending, t, hrun, hending⟩ | ⟨result, after, hcampaign⟩
  · rw [hrun, Prod.mk.injEq] at h
    rw [hending n (Except.error.inj h.1)]
    exact List.mem_cons_self
  · rw [hcampaign.run_eq] at h
    rcases conclude_exit h with ⟨-, rfl⟩ | ⟨-, rfl⟩
    · exact List.mem_cons_of_mem _ List.mem_cons_self
    · exact List.mem_cons_self

/-- The status of one is kept for an interrupt. -/
theorem run_interrupted_iff :
    (∃ s', (run sys parser source seeded rounds start r).run.run s =
        (.error (.exit interruptedStatus), s')) ↔
      ∃ after, ComesTo sys parser source seeded rounds start r s (.error .cancelled) after := by
  constructor
  · rintro ⟨s', h⟩
    rcases run_cases sys parser source seeded rounds start r s with
      ⟨ending, t, hrun, hending⟩ | ⟨result, after, hcampaign⟩
    · rw [hrun, Prod.mk.injEq] at h
      exact absurd (hending _ (Except.error.inj h.1)) (by decide)
    · rw [hcampaign.run_eq] at h
      rcases conclude_exit h with ⟨rfl, -⟩ | ⟨-, hone⟩
      · exact ⟨after, hcampaign⟩
      · exact absurd hone (by decide)
  · rintro ⟨after, h⟩
    obtain ⟨warning, counters, -, -, hconclude⟩ := conclude_cancelled sys after.stats after.host
    exact ⟨_, h.run_eq.trans hconclude⟩

/-- A run is done exactly when its campaign is through. -/
theorem run_done_iff :
    (∃ s', (run sys parser source seeded rounds start r).run.run s = (.ok (), s')) ↔
      ∃ after, ComesTo sys parser source seeded rounds start r s (.ok true) after := by
  constructor
  · rintro ⟨s', h⟩
    rcases run_cases sys parser source seeded rounds start r s with
      ⟨ending, t, hrun, -⟩ | ⟨result, after, hcampaign⟩
    · rw [hrun] at h
      cases h
    · rw [hcampaign.run_eq] at h
      obtain rfl := conclude_ok h
      exact ⟨after, hcampaign⟩
  · rintro ⟨after, h⟩
    obtain ⟨counters, -, hconclude⟩ := conclude_done sys after.stats after.host
    exact ⟨_, h.run_eq.trans hconclude⟩

/-! ### The whole program -/

/-- Words that cannot be read are complained about, and nothing else is done. -/
theorem outcome_of_usage {e : CommandLine.UsageError}
    (h : CommandLine.read start.words = .error e) :
    outcome sys parser source seeded rounds start s = (.exit 2, sys.complain e.message s) := by
  have hperform : (perform sys parser source seeded rounds start).run.run s =
      (.error (.exit 2), sys.complain e.message s) := by
    simp only [perform, h]
    exact run_bind_ok rfl
  simp only [outcome, hperform]

theorem perform_of_run (h : CommandLine.read start.words = .ok (.run r)) :
    perform sys parser source seeded rounds start =
      run sys parser source seeded rounds start r := by
  simp only [perform, h]

/-- A request for a run is a run. -/
theorem outcome_of_run (h : CommandLine.read start.words = .ok (.run r)) :
    outcome sys parser source seeded rounds start s =
      match (run sys parser source seeded rounds start r).run.run s with
      | (.ok (), s) => (.exit 0, s)
      | (.error ending, s) => (ending, s) := by
  rcases hrun : (run sys parser source seeded rounds start r).run.run s with ⟨done, s'⟩
  cases done <;> simp only [outcome, perform_of_run h, hrun]

/-- The words for a run start that run. -/
theorem outcome_words (hr : r.Sayable) (h : start.words = r.words) :
    outcome sys parser source seeded rounds start s =
      match (run sys parser source seeded rounds start r).run.run s with
      | (.ok (), s) => (.exit 0, s)
      | (.error ending, s) => (ending, s) := by
  refine outcome_of_run ?_
  rw [h]
  exact CommandLine.read_words hr

theorem perform_exitsWith {q : CommandLine.Request} (h : CommandLine.read start.words = .ok q) :
    ExitsWith [1, interruptedStatus] (perform sys parser source seeded rounds start) := by
  have hone : [1] ⊆ [1, interruptedStatus] := List.cons_subset_cons 1 (List.nil_subset _)
  unfold perform
  rw [h]
  cases q with
  | help page => exact exitsWith_modify _
  | version => exact exitsWith_modify _
  | list directory => exact (list_exitsWith sys parser start directory).mono hone
  | run r => exact run_exitsWith sys parser source seeded rounds start r

/-- Only a run is interrupted. -/
theorem exists_run_of_interrupted {s' : σ}
    (h : (perform sys parser source seeded rounds start).run.run s =
      (.error (.exit interruptedStatus), s')) :
    ∃ r, CommandLine.read start.words = .ok (.run r) := by
  unfold perform at h
  cases hread : CommandLine.read start.words with
  | error e =>
      rw [hread] at h
      cases h
  | ok q =>
      rw [hread] at h
      cases q with
      | help page => cases h
      | version => cases h
      | list directory =>
          exact absurd (list_exitsWith sys parser start directory _ _ _ h) (by decide)
      | run r => exact ⟨r, rfl⟩

theorem outcome_eq_exit {n : Nat}
    (h : (outcome sys parser source seeded rounds start s).1 = .exit n) :
    (n = 0 ∧ ∃ s', (perform sys parser source seeded rounds start).run.run s = (.ok (), s')) ∨
      ∃ s', (perform sys parser source seeded rounds start).run.run s = (.error (.exit n), s') := by
  unfold outcome at h
  rcases hperform : (perform sys parser source seeded rounds start).run.run s with ⟨done, s'⟩
  rw [hperform] at h
  cases done with
  | ok =>
      obtain rfl := Ending.exit.inj h
      exact Or.inl ⟨rfl, s', rfl⟩
  | error ending =>
      obtain rfl : ending = .exit n := h
      exact Or.inr ⟨s', rfl⟩

/-- The program has four exit statuses. -/
theorem exit_mem {n : Nat}
    (h : (outcome sys parser source seeded rounds start s).1 = .exit n) :
    n ∈ [0, 1, 2, interruptedStatus] := by
  cases hread : CommandLine.read start.words with
  | error e =>
      rw [outcome_of_usage hread] at h
      obtain rfl := Ending.exit.inj h
      simp
  | ok q =>
      rcases outcome_eq_exit h with ⟨rfl, -⟩ | ⟨s', hperform⟩
      · exact List.mem_cons_self
      · have hmem := perform_exitsWith hread s n s' hperform
        simp only [List.mem_cons, List.not_mem_nil, or_false] at hmem ⊢
        tauto

/-- Status 2 is for words that cannot be read. -/
theorem exit_usage_iff :
    (outcome sys parser source seeded rounds start s).1 = .exit 2 ↔
      ∃ e, CommandLine.read start.words = .error e ∧
        outcome sys parser source seeded rounds start s = (.exit 2, sys.complain e.message s) := by
  constructor
  · intro h
    cases hread : CommandLine.read start.words with
    | error e => exact ⟨e, rfl, outcome_of_usage hread⟩
    | ok q =>
        rcases outcome_eq_exit h with ⟨htwo, -⟩ | ⟨s', hperform⟩
        · cases htwo
        · exact absurd (perform_exitsWith hread s 2 s' hperform) (by decide)
  · rintro ⟨e, -, h⟩
    rw [h]

/-- Status 130 is for an interrupted campaign. -/
theorem exit_interrupted_iff :
    (outcome sys parser source seeded rounds start s).1 = .exit interruptedStatus ↔
      ∃ r, CommandLine.read start.words = .ok (.run r) ∧
        ∃ after, ComesTo sys parser source seeded rounds start r s (.error .cancelled) after := by
  constructor
  · intro h
    rcases outcome_eq_exit h with ⟨hzero, -⟩ | ⟨s', hperform⟩
    · cases hzero
    · obtain ⟨r, hread⟩ := exists_run_of_interrupted hperform
      rw [perform_of_run hread] at hperform
      exact ⟨r, hread, run_interrupted_iff.mp ⟨s', hperform⟩⟩
  · rintro ⟨r, hread, hcomes⟩
    obtain ⟨s', hrun⟩ := run_interrupted_iff.mpr hcomes
    rw [outcome_of_run hread, hrun]

/-- A run has status 0 if its campaign is through. -/
theorem exit_done_iff (hread : CommandLine.read start.words = .ok (.run r)) :
    (outcome sys parser source seeded rounds start s).1 = .exit 0 ↔
      ∃ after, ComesTo sys parser source seeded rounds start r s (.ok true) after := by
  constructor
  · intro h
    rcases outcome_eq_exit h with ⟨-, s', hperform⟩ | ⟨s', hperform⟩
    · rw [perform_of_run hread] at hperform
      exact run_done_iff.mp ⟨s', hperform⟩
    · exact absurd (perform_exitsWith hread s 0 s' hperform) (by decide)
  · intro hcomes
    obtain ⟨s', hrun⟩ := run_done_iff.mpr hcomes
    rw [outcome_of_run hread, hrun]

/-- **The exit status tells how the program ended.**  There are four of them.  Status 2 is for words
that cannot be read; these are complained about and nothing else is done.  Status 130 is for a run
whose campaign was interrupted, and for no other request.  A run exits with status 0 if its campaign
is through, and not otherwise. -/
theorem outcome_status (sys : System σ) (parser : Parser) (source : RandomSource ρ)
    (seeded : Int → ρ) (rounds : Nat) (start : Start) (s : σ) :
    (∀ n, (outcome sys parser source seeded rounds start s).1 = .exit n →
      n ∈ [0, 1, 2, interruptedStatus]) ∧
    ((outcome sys parser source seeded rounds start s).1 = .exit 2 ↔
      ∃ e, CommandLine.read start.words = .error e ∧
        outcome sys parser source seeded rounds start s = (.exit 2, sys.complain e.message s)) ∧
    ((outcome sys parser source seeded rounds start s).1 = .exit interruptedStatus ↔
      ∃ r, CommandLine.read start.words = .ok (.run r) ∧
        ∃ after, ComesTo sys parser source seeded rounds start r s (.error .cancelled) after) ∧
    ∀ r, CommandLine.read start.words = .ok (.run r) →
      ((outcome sys parser source seeded rounds start s).1 = .exit 0 ↔
        ∃ after, ComesTo sys parser source seeded rounds start r s (.ok true) after) :=
  ⟨fun _ => exit_mem, exit_usage_iff, exit_interrupted_iff, fun _ => exit_done_iff⟩

/-- A run that is refused for its settings exits with status 1 and prints why, and nothing else. -/
theorem outcome_of_onlyReports {root : Path} {text : String}
    (hread : CommandLine.read start.words = .ok (.run r))
    (h : OnlyReports sys.libraries (sys.workspace s) root text)
    (hstart : StartsIn sys start r s root) :
    outcome sys parser source seeded rounds start s = (.exit 1, sys.print text s) := by
  rw [outcome_of_run hread, h sys parser source seeded rounds start r s rfl rfl hstart]

end Program

end Tighten
