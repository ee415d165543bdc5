import Tighten.Proofs.Sampling
import Tighten.Proofs.Step
import Tighten.Proofs.World
import Tighten.Rust.Parse

/-
What an interrupt can still do, and what it cannot undo.

Every command looks at the token before it starts a child.  So once the token is set, at most one
more child is started: that of the command which had looked already.

An iteration whose batch was not yet judged when the token was set comes to nothing.  The command
that judges may still report how the tests went, but what the campaign wants next, to commit the
batch or to discard it, takes a command, which finds the token set; and nothing in the campaign goes
on after that.  The moments up to the judgement are the iteration's `window`.  What a moment of the
window has seen of the token is still so at the end of the window, so it is enough to look there.
-/
namespace Tighten.Campaign

variable {τ ρ : Type} {o : Outside τ} {tools : Tools} {directory : String}
  {t : Child.Terminator} {looks : Nat} {w₀ w w' : World τ} {more : List Moment}

/-! ### Children started late -/

/-- A child is started, and the token is set before that or by the time it is done. -/
def Moment.isLate (x : Moment) : Bool :=
  (x.before || x.after) && x.act.launch?.isSome

/-- The number of children that are started late. -/
def lateStarts (moments : List Moment) : Nat :=
  moments.countP Moment.isLate

theorem lateStarts_append (a b : List Moment) :
    lateStarts (a ++ b) = lateStarts a + lateStarts b :=
  List.countP_append

theorem lateStarts_eq_zero {moments : List Moment} (h : ∀ x ∈ moments, x.act.launch? = none) :
    lateStarts moments = 0 := by
  refine List.countP_eq_zero.mpr fun x hx hlate => ?_
  rw [Moment.isLate, h x hx, Option.isSome_none, Bool.and_false] at hlate
  cases hlate

/-- Nothing is late where the token is not set in the end. -/
theorem lateStarts_of_unset (h : w.Later w' more) (hunset : w'.token.cancelled = false) :
    lateStarts more = 0 := by
  refine List.countP_eq_zero.mpr fun x hx hlate => ?_
  rw [Moment.isLate, Bool.and_eq_true, Bool.or_eq_true] at hlate
  have hknown := h.known x hx hlate.1
  rw [hunset] at hknown
  cases hknown

/-- A child is only started by a command that has looked at the token and found it not set, with no
more than a remark in between. -/
def Entered (moments : List Moment) : Prop :=
  ∀ before x after, moments = before ++ x :: after → x.act.launch?.isSome = true →
    ∃ earlier look remark, before = earlier ++ [look, remark] ∧
      look.act = .child (.looked .entry false)

theorem entered_of_none {moments : List Moment} (h : ∀ x ∈ moments, x.act.launch? = none) :
    Entered moments := by
  intro before x after heq hstart
  have hx : x ∈ moments := by
    rw [heq]
    exact List.mem_append_right _ List.mem_cons_self
  rw [h x hx] at hstart
  cases hstart

theorem Entered.append {a b : List Moment} (ha : Entered a) (hb : Entered b) :
    Entered (a ++ b) := by
  intro before x after heq hstart
  rcases List.append_eq_append_iff.mp heq with ⟨c, rfl, hc⟩ | ⟨c, rfl, hc⟩
  · obtain ⟨earlier, look, remark, rfl, hlook⟩ := hb c x after hc hstart
    exact ⟨a ++ earlier, look, remark, (List.append_assoc ..).symm, hlook⟩
  · cases c with
    | cons y c =>
        obtain ⟨rfl, -⟩ := List.cons.inj hc
        exact ha before x c rfl hstart
    | nil =>
        -- a start that opens `b` has nothing before it in `b`
        obtain ⟨earlier, look, remark, hnil, -⟩ := hb [] x after hc.symm hstart
        simp at hnil

theorem StartsOne.entered {command : Command} (h : StartsOne command more) : Entered more := by
  obtain ⟨look, line, start, rest, rfl, hlook, ⟨l, hline⟩, -, hrest⟩ := h
  refine Entered.append ?_ (entered_of_none fun x hx => (hrest x hx).2)
  intro before x after heq hstart
  match before, heq with
  | [], heq =>
      obtain ⟨rfl, -⟩ := List.cons.inj heq
      rw [hlook] at hstart
      cases hstart
  | [y], heq =>
      obtain ⟨-, heq⟩ := List.cons.inj heq
      obtain ⟨rfl, -⟩ := List.cons.inj heq
      rw [hline] at hstart
      cases hstart
  | [y, z], heq =>
      obtain ⟨rfl, -⟩ := List.cons.inj heq
      exact ⟨[], look, z, rfl, hlook⟩
  | y :: z :: x' :: before, heq => simp at heq

theorem StartsOne.lateStarts_le {command : Command} (h : StartsOne command more) :
    lateStarts more ≤ 1 := by
  obtain ⟨look, line, start, rest, rfl, hlook, ⟨l, hline⟩, -, hrest⟩ := h
  have hbefore : lateStarts [look, line] = 0 := by
    refine lateStarts_eq_zero fun x hx => ?_
    rcases List.mem_pair.mp hx with rfl | rfl
    · rw [hlook]
      rfl
    · rw [hline]
      rfl
  have hstart : lateStarts [start] ≤ 1 := List.countP_le_length
  have hafter : lateStarts rest = 0 := lateStarts_eq_zero fun x hx => (hrest x hx).2
  rw [lateStarts_append, show [look, line, start] = [look, line] ++ [start] from rfl,
    lateStarts_append]
  omega

/-- All of it belongs to one command. -/
theorem StartsOne.mem {command : Command} (h : StartsOne command more) {x : Moment}
    (hx : x ∈ more) : x.act.isChild = true ∧
      ∀ launch, x.act.launch? = some launch → launch.command = command := by
  obtain ⟨look, line, start, rest, rfl, hlook, ⟨l, hline⟩, ⟨launch, result, hstart, hcommand⟩,
    hrest⟩ := h
  have hcases : x = look ∨ x = line ∨ x = start ∨ x ∈ rest := by simpa using hx
  rcases hcases with rfl | rfl | rfl | hx
  · rw [hlook]
    exact ⟨rfl, fun _ hnone => nomatch hnone⟩
  · rw [hline]
    exact ⟨rfl, fun _ hnone => nomatch hnone⟩
  · rw [hstart]
    refine ⟨rfl, fun _ hsome => ?_⟩
    rw [← Option.some.inj hsome]
    exact hcommand
  · refine ⟨(hrest x hx).1, fun _ hsome => ?_⟩
    rw [(hrest x hx).2] at hsome
    cases hsome

/-! ### Tasks -/

/-- How a task is done: by a command that starts children for nothing else, and none if it finds the
token set. -/
structure Called (tools : Tools) (task : Task) (w w' : World τ) (r : Except RunError Verdict)
    (more : List Moment) : Prop where
  later : w.Later w' more
  command : ∀ x ∈ more, x.act.isChild = true ∧
    (∀ launch, x.act.launch? = some launch → launch.command = tools.command task) ∨
    x.act = .campaign (.called task r)
  noted : ∃ x ∈ more, x.act = .campaign (.called task r)
  stopped : w.token.cancelled = true → r = .error .cancelled ∧ ∀ x ∈ more, x.act.launch? = none
  late : lateStarts more ≤ 1
  entered : Entered more

/-- A command that has run is noted with its answer. -/
theorem called_of_run {task : Task} {run : List Moment}
    {answer : Except RunError Verdict × World τ}
    (hrun : Child.run t o.platform looks (tools.command task) directory w = answer)
    (hlater : w.Later answer.2 run)
    (hcommand : ∀ x ∈ run, x.act.isChild = true ∧
      ∀ launch, x.act.launch? = some launch → launch.command = tools.command task)
    (hstopped : w.token.cancelled = true →
      answer.1 = .error .cancelled ∧ ∀ x ∈ run, x.act.launch? = none)
    (hlate : lateStarts run ≤ 1) (hentered : Entered run) :
    ∃ more, Called tools task w ((o.host tools directory t looks).call task w).2
      ((o.host tools directory t looks).call task w).1 more := by
  have hcall : (o.host tools directory t looks).call task w = (answer.1,
      answer.2.noted (.campaign (.called task answer.1)) answer.2.token.cancelled) := by
    simp only [Outside.host, callTools, hrun]
  have hnone : ∀ x ∈ [answer.2.still (.campaign (.called task answer.1))],
      x.act.launch? = none := by
    intro x hx
    obtain rfl := List.mem_singleton.mp hx
    rfl
  rw [hcall]
  refine ⟨_, ⟨hlater.trans (World.noted_later _), ?_, ?_, ?_, ?_, ?_⟩⟩
  · intro x hx
    rcases List.mem_append.mp hx with hx | hx
    · exact Or.inl (hcommand x hx)
    · obtain rfl := List.mem_singleton.mp hx
      exact Or.inr rfl
  · exact ⟨_, List.mem_append_right _ List.mem_cons_self, rfl⟩
  · intro hset
    refine ⟨(hstopped hset).1, fun x hx => ?_⟩
    rcases List.mem_append.mp hx with hx | hx
    · exact (hstopped hset).2 x hx
    · exact hnone x hx
  · rw [lateStarts_append, lateStarts_eq_zero hnone]
    exact hlate
  · exact hentered.append (entered_of_none hnone)

theorem exists_called (task : Task) (w : World τ) :
    ∃ more, Called tools task w ((o.host tools directory t looks).call task w).2
      ((o.host tools directory t looks).call task w).1 more := by
  cases hset : w.token.cancelled with
  | true =>
      obtain ⟨w', hrun, rest, hlater, hrest⟩ :=
        Outside.run_of_set o t looks hset (tools.command task) directory
      have hnone : ∀ x ∈ rest, x.act.launch? = none := fun x hx => (hrest x hx).2
      have hzero := lateStarts_eq_zero hnone
      refine called_of_run hrun hlater ?_ (fun _ => ⟨rfl, hnone⟩) (by omega)
        (entered_of_none hnone)
      intro x hx
      refine ⟨(hrest x hx).1, fun launch hlaunch => ?_⟩
      rw [hnone x hx] at hlaunch
      cases hlaunch
  | false =>
      obtain ⟨run, hlater, hrun⟩ :=
        Outside.run_of_unset o t looks hset (tools.command task) directory
      refine called_of_run rfl hlater (fun _ => hrun.mem) ?_ hrun.lateStarts_le hrun.entered
      intro htrue
      rw [hset] at htrue
      cases htrue

/-! ### At most one child more -/

/-- Of the children started since the world was `w₀`, at most one was started late, and each after a
look at the token. -/
def FewLate (w₀ w : World τ) : Prop :=
  ∃ new, w₀.Later w new ∧ lateStarts new ≤ 1 ∧ Entered new

theorem FewLate.refl (w : World τ) : FewLate w w :=
  ⟨[], .refl w, Nat.zero_le 1, entered_of_none fun _ hx => absurd hx List.not_mem_nil⟩

/-- What goes on with at most one late start, and none once the token is set, keeps it that way. -/
theorem FewLate.later (h : FewLate w₀ w) (hlater : w.Later w' more) (hlate : lateStarts more ≤ 1)
    (hset : w.token.cancelled = true → lateStarts more = 0) (hentered : Entered more) :
    FewLate w₀ w' := by
  obtain ⟨new, hnew, hone, hnewEntered⟩ := h
  refine ⟨new ++ more, hnew.trans hlater, ?_, hnewEntered.append hentered⟩
  rw [lateStarts_append]
  cases hw : w.token.cancelled with
  | true =>
      have := hset hw
      omega
  | false =>
      have := lateStarts_of_unset hnew hw
      omega

theorem FewLate.did (h : FewLate w₀ w) {event : Event} (outside : τ) :
    FewLate w₀ (w.did o (.campaign event) outside) := by
  have hnone : ∀ x ∈ [w.moment o (.campaign event) outside], x.act.launch? = none := by
    intro x hx
    obtain rfl := List.mem_singleton.mp hx
    rfl
  have hzero := lateStarts_eq_zero hnone
  exact h.later (World.did_later _ outside) (by omega) (fun _ => hzero) (entered_of_none hnone)

theorem mem_displayIn {d : Display (World τ)}
    (hd : d ∈ (o.host tools directory t looks).display) : ∃ e, d = o.displayIn e := by
  obtain ⟨e, -, heq⟩ := Option.map_eq_some_iff.mp hd
  exact ⟨e, heq.symm⟩

theorem fewLate_keeps (w₀ : World τ) :
    Keeps (o.host tools directory t looks) (FewLate w₀) where
  write _ _ _ hw := hw.did _
  call task w hw := by
    obtain ⟨more, hcalled⟩ := exists_called task w
    exact hw.later hcalled.later hcalled.late
      (fun hset => lateStarts_eq_zero (hcalled.stopped hset).2) hcalled.entered
  log _ _ hw := hw.did _
  batch d hd n batch w hw := by
    obtain ⟨e, rfl⟩ := mem_displayIn hd
    exact hw.did _
  status d hd n outcome w hw := by
    obtain ⟨e, rfl⟩ := mem_displayIn hd
    exact hw.did _

/-! ### The window of an iteration -/

/-- The moment decides about the batch: the tests are over, or an edit could not be written. -/
def Moment.judges (x : Moment) : Bool :=
  match x.act with
  | .campaign (.called .test _) => true
  | .campaign (.wrote _ _ (.error _)) => true
  | _ => false

/-- The moments up to the first that decides about the batch, and that one. -/
def window : List Moment → List Moment
  | [] => []
  | x :: rest => if x.judges then [x] else x :: window rest

theorem mem_of_mem_window {x : Moment} {moments : List Moment} (h : x ∈ window moments) :
    x ∈ moments := by
  induction moments with
  | nil => exact h
  | cons y rest ih =>
      unfold window at h
      split at h
      · obtain rfl := List.mem_singleton.mp h
        exact List.mem_cons_self
      · rcases List.mem_cons.mp h with rfl | h
        · exact List.mem_cons_self
        · exact List.mem_cons_of_mem _ (ih h)

/-- Once the batch is judged, the window is closed. -/
theorem window_append {a : List Moment} (h : ∃ x ∈ a, x.judges = true) (b : List Moment) :
    window (a ++ b) = window a := by
  induction a with
  | nil =>
      obtain ⟨x, hx, -⟩ := h
      exact absurd hx List.not_mem_nil
  | cons y rest ih =>
      rw [List.cons_append, window, window]
      by_cases hy : y.judges = true
      · rw [if_pos hy, if_pos hy]
      · obtain ⟨x, hx, hjudges⟩ := h
        rcases List.mem_cons.mp hx with rfl | hx
        · exact absurd hjudges hy
        · rw [if_neg hy, if_neg hy, ih ⟨x, hx, hjudges⟩]

/-- The token is set at some moment of the window. -/
def Caught (moments : List Moment) : Prop :=
  ∃ x ∈ window moments, x.before = true ∨ x.after = true

/-- The moment is neither the start of a commit nor the report of an outcome. -/
def Moment.IsHarmless (tools : Tools) (x : Moment) : Prop :=
  (∀ launch message, x.act.launch? = some launch → launch.command ≠ tools.git.commit message) ∧
    ∀ iteration outcome, x.act ≠ .campaign (.showedStatus iteration outcome)

/-- Only one task takes the command that commits. -/
theorem command_ne_commit {task : Task} (h : ∀ message, task ≠ .commit message)
    (message : String) : tools.command task ≠ tools.git.commit message := by
  cases task with
  | commit m => exact absurd rfl (h m)
  | test => simp [Tools.command, Cargo.test, Git.commit]
  | format => simp [Tools.command, Cargo.format, Git.commit]
  | reset => simp [Tools.command, Git.reset, Git.commit]
  | discard => simp [Tools.command, Git.discard, Git.commit]

theorem Called.harmless {task : Task} {r : Except RunError Verdict}
    (h : Called tools task w w' r more)
    (htask : w.token.cancelled = true ∨ ∀ message, task ≠ .commit message) {x : Moment}
    (hx : x ∈ more) : x.IsHarmless tools := by
  rcases h.command x hx with ⟨hchild, hcommand⟩ | hact
  · refine ⟨fun launch message hlaunch => ?_, fun iteration outcome hact => ?_⟩
    · rcases htask with hset | htask
      · rw [(h.stopped hset).2 x hx] at hlaunch
        cases hlaunch
      · rw [hcommand launch hlaunch]
        exact command_ne_commit htask message
    · rw [hact] at hchild
      cases hchild
  · rw [Moment.IsHarmless, hact]
    exact ⟨fun _ _ hnone => (nomatch hnone), fun _ _ => by simp⟩

/-! ### An iteration that is caught

While the batch is not judged, nothing has happened that an interrupt would have to undo: the
iteration is `Spared`.  When it is judged, either the token is set by then, or the interrupt has
`Missed` the window.
-/

/-- Since the world was `w₀` nothing was committed and no outcome was reported. -/
def Spared (tools : Tools) (w₀ w : World τ) : Prop :=
  ∃ new, w₀.Later w new ∧ ∀ x ∈ new, x.IsHarmless tools

/-- Since the world was `w₀` the batch was judged, and the token was not set by then. -/
def Missed (w₀ w : World τ) : Prop :=
  ∃ new, w₀.Later w new ∧ (∃ x ∈ new, x.judges = true) ∧ ¬Caught new

theorem Spared.later (h : Spared tools w₀ w) (hlater : w.Later w' more)
    (hmore : ∀ x ∈ more, x.IsHarmless tools) : Spared tools w₀ w' := by
  obtain ⟨new, hnew, hspared⟩ := h
  refine ⟨new ++ more, hnew.trans hlater, fun x hx => ?_⟩
  rcases List.mem_append.mp hx with hx | hx
  · exact hspared x hx
  · exact hmore x hx

/-- The batch is judged: either the token is set by now, or it never was. -/
theorem Spared.judged (h : Spared tools w₀ w) (hlater : w.Later w' more)
    (hmore : ∀ x ∈ more, x.IsHarmless tools) (hjudged : ∃ x ∈ more, x.judges = true) :
    Missed w₀ w' ∨ Spared tools w₀ w' ∧ w'.token.cancelled = true := by
  cases hset : w'.token.cancelled with
  | true => exact Or.inr ⟨h.later hlater hmore, rfl⟩
  | false =>
      obtain ⟨new, hnew, -⟩ := h
      obtain ⟨x, hx, hjudges⟩ := hjudged
      have hlater' := hnew.trans hlater
      refine Or.inl ⟨_, hlater', ⟨x, List.mem_append_right _ hx, hjudges⟩, ?_⟩
      rintro ⟨y, hy, hyset⟩
      have hknown := hlater'.known y (mem_of_mem_window hy) hyset
      rw [hset] at hknown
      cases hknown

theorem harmless_moment {event : Event} {outside : τ}
    (h : ∀ iteration outcome, event ≠ .showedStatus iteration outcome) :
    ∀ x ∈ [w.moment o (.campaign event) outside], x.IsHarmless tools := by
  intro x hx
  obtain rfl := List.mem_singleton.mp hx
  exact ⟨fun _ _ hnone => (nomatch hnone),
    fun iteration outcome hact => h iteration outcome (Act.campaign.inj hact)⟩

theorem Spared.did (h : Spared tools w₀ w) {event : Event} {outside : τ}
    (hevent : ∀ iteration outcome, event ≠ .showedStatus iteration outcome) :
    Spared tools w₀ (w.did o (.campaign event) outside) :=
  h.later (World.did_later _ _) (harmless_moment hevent)

/-- What comes after the window is as it may be. -/
theorem Missed.later (h : Missed w₀ w) (hlater : w.Later w' more) : Missed w₀ w' := by
  obtain ⟨new, hnew, ⟨x, hx, hjudges⟩, hmissed⟩ := h
  refine ⟨new ++ more, hnew.trans hlater, ⟨x, List.mem_append_left _ hx, hjudges⟩, ?_⟩
  unfold Caught at hmissed ⊢
  rwa [window_append ⟨x, hx, hjudges⟩]

/-- The iteration is spared, and nothing is counted yet. -/
def Pending (tools : Tools) (w₀ : World τ) (stats : Stats) (s : State (World τ) ρ) : Prop :=
  Spared tools w₀ s.host ∧ s.stats = stats

/-- The iteration is still spared although the token is set. -/
def Halted (tools : Tools) (w₀ : World τ) (stats : Stats) (s : State (World τ) ρ) : Prop :=
  Pending tools w₀ stats s ∧ s.host.token.cancelled = true

/-- The iteration is over as if it had not been, unless the window was missed. -/
def Dropped (tools : Tools) (w₀ : World τ) (stats : Stats) (s : State (World τ) ρ) : Prop :=
  Missed w₀ s.host ∨ Pending tools w₀ stats s

/-- The batch is judged, and the window was missed or the iteration cannot go on. -/
def Judging (tools : Tools) (w₀ : World τ) (stats : Stats) (s : State (World τ) ρ) : Prop :=
  Missed w₀ s.host ∨ Halted tools w₀ stats s

/-- An outcome after which the window was missed, or the edits are to be discarded. -/
def Tried (tools : Tools) (w₀ : World τ) (stats : Stats) (outcome : Outcome)
    (s : State (World τ) ρ) : Prop :=
  Missed w₀ s.host ∨ outcome ≠ .passed ∧ Halted tools w₀ stats s

theorem Judging.tried {stats : Stats} {outcome : Outcome} {s : State (World τ) ρ}
    (h : Judging tools w₀ stats s) (houtcome : outcome ≠ .passed) :
    Tried tools w₀ stats outcome s :=
  h.imp_right fun hs => ⟨houtcome, hs⟩

section

variable {c : Setup (World τ) ρ} {stats : Stats} (hc : c.host = o.host tools directory t looks)

include hc

theorem called_of_call {task : Task} {r : Except RunError Verdict}
    (hcall : c.host.call task w = (r, w')) : ∃ more, Called tools task w w' r more := by
  rw [hc] at hcall
  obtain ⟨more, hcalled⟩ := exists_called task w
  rw [hcall] at hcalled
  exact ⟨more, hcalled⟩

theorem missed_keeps : Keeps c.host (Missed w₀) := by
  rw [hc]
  refine ⟨?_, ?_, ?_, ?_, ?_⟩
  · intro p bytes w hw
    exact hw.later (World.did_later _ _)
  · intro task w hw
    obtain ⟨more, hcalled⟩ := exists_called task w
    exact hw.later hcalled.later
  · intro line w hw
    exact hw.later (World.did_later _ _)
  · intro d hd n batch w hw
    obtain ⟨e, rfl⟩ := mem_displayIn hd
    exact hw.later (World.did_later _ _)
  · intro d hd n outcome w hw
    obtain ⟨e, rfl⟩ := mem_displayIn hd
    exact hw.later (World.did_later _ _)

theorem restore_pending :
    Leads (Pending tools w₀ stats) (restore c .reset) (fun _ => Pending tools w₀ stats)
      (fun _ => Dropped tools w₀ stats) := by
  have hreset : ∀ (s : State (World τ) ρ) r host, Pending tools w₀ stats s →
      c.host.call .reset s.host = (r, host) → Pending tools w₀ stats { s with host } := by
    intro s r host ⟨hspared, hstats⟩ hcall
    obtain ⟨more, hcalled⟩ := called_of_call hc hcall
    refine ⟨hspared.later hcalled.later fun x hx => ?_, hstats⟩
    exact hcalled.harmless (Or.inr fun _ => Task.noConfusion) hx
  refine restore_leads (fun s host hs hcall => hreset s _ host hs hcall) ?_
  intro s r host e hs hcall _
  exact Or.inr (hreset s r host hs hcall)

theorem draw_pending :
    Leads (Pending tools w₀ stats) (draw c) (fun _ => Pending tools w₀ stats)
      (fun _ => Dropped tools w₀ stats) := by
  refine draw_leads (R := fun _ => Pending tools w₀ stats) ?_ ?_ ?_ ?_
  · intro s hs
    rw [hc]
    exact ⟨hs.1.did fun _ _ => Event.noConfusion, hs.2⟩
  · intro r s line hs
    rw [hc]
    exact ⟨hs.1.did fun _ _ => Event.noConfusion, hs.2⟩
  · intro r batch s hs _
    exact hs
  · intro r e s hs _
    exact Or.inr hs

theorem showBatch_pending {iteration : Nat} {batch : List Candidate} :
    Leads (Pending tools w₀ stats) (showBatch c iteration batch)
      (fun _ => Pending tools w₀ stats) (fun _ => Dropped tools w₀ stats) := by
  have hshown : ∀ d ∈ c.host.display, ∀ (s : State (World τ) ρ) r host,
      Pending tools w₀ stats s → d.batch iteration batch s.host = (r, host) →
      Pending tools w₀ stats { s with host } := by
    intro d hd s r host hs hbatch
    rw [hc] at hd
    obtain ⟨e, rfl⟩ := mem_displayIn hd
    rw [← (Prod.mk.inj hbatch).2]
    exact ⟨hs.1.did fun _ _ => Event.noConfusion, hs.2⟩
  refine showBatch_leads (fun _ hs => hs) ?_ ?_
  · intro d hd s host hs hbatch
    exact hshown d hd s _ host hs hbatch
  · intro d hd s e host hs hbatch
    exact Or.inr (hshown d hd s _ host hs hbatch)

/-- An edit that cannot be written decides about the batch. -/
theorem edit_pending {batch : List Candidate} :
    Leads (Pending tools w₀ stats) (edit c batch)
      (fun r => match r with
        | .ok () => Pending tools w₀ stats
        | .error _ => Judging tools w₀ stats)
      (fun _ => Dropped tools w₀ stats) := by
  have hends : ∀ s : State (World τ) ρ, Pending tools w₀ stats s →
      Batch.EndsWith (Spared tools w₀)
        (fun w => Missed w₀ w ∨ Spared tools w₀ w ∧ w.token.cancelled = true)
        (Batch.apply c.host.write batch s.host) := by
    intro s hs
    refine Batch.apply_endsWith ?_ ?_ hs.1
    · intro p bytes w w' hw hwrite
      rw [hc] at hwrite
      rw [← (Prod.mk.inj hwrite).2]
      exact hw.did fun _ _ => Event.noConfusion
    · intro p bytes w e w' hw hwrite
      rw [hc] at hwrite
      obtain ⟨hanswer, rfl⟩ := Prod.mk.inj hwrite
      refine hw.judged (World.did_later _ _) (harmless_moment fun _ _ => Event.noConfusion)
        ⟨_, List.mem_cons_self, ?_⟩
      rw [hanswer]
      rfl
  refine edit_leads ?_ ?_ ?_
  · intro s paths host hs happly
    have hend := hends s hs
    rw [happly] at hend
    exact ⟨hend, hs.2⟩
  · intro s e host hs happly
    have hend := hends s hs
    rw [happly] at hend
    exact hend.imp_right fun ⟨hspared, hset⟩ => ⟨⟨hspared, hs.2⟩, hset⟩
  · intro s e host hs happly
    have hend := hends s hs
    rw [happly] at hend
    exact Or.inr ⟨hend, hs.2⟩

/-- The tests decide about the batch, however they end. -/
theorem test_pending :
    Leads (Pending tools w₀ stats) (call c .test) (fun _ => Judging tools w₀ stats)
      (fun _ => Dropped tools w₀ stats) := by
  refine call_leads fun s r host hs hcall => ?_
  obtain ⟨more, hcalled⟩ := called_of_call hc hcall
  have hjudged : Judging tools w₀ stats { s with host } := by
    obtain ⟨x, hx, hact⟩ := hcalled.noted
    have hjudges : x.judges = true := by
      rw [Moment.judges, hact]
    refine (hs.1.judged hcalled.later ?_ ⟨x, hx, hjudges⟩).imp_right
      fun ⟨hspared, hset⟩ => ⟨⟨hspared, hs.2⟩, hset⟩
    exact fun _ => hcalled.harmless (Or.inr fun _ => Task.noConfusion)
  have hdropped : Dropped tools w₀ stats { s with host } := hjudged.imp_right And.left
  cases r with
  | ok v => exact hjudged
  | error e =>
      cases e with
      | launch e => exact hjudged
      | cancelled => exact hdropped
      | terminate e => exact hdropped
      | unfinished => exact hdropped

/-- Nothing is done any more. -/
theorem call_halted {task : Task} :
    Leads (Halted tools w₀ stats) (call c task) (fun _ _ => False)
      (fun _ => Dropped tools w₀ stats) := by
  refine call_leads fun s r host ⟨⟨hspared, hstats⟩, hset⟩ hcall => ?_
  obtain ⟨more, hcalled⟩ := called_of_call hc hcall
  rw [(hcalled.stopped hset).1]
  exact Or.inr ⟨hspared.later hcalled.later fun _ => hcalled.harmless (Or.inl hset), hstats⟩

omit hc in
/-- A step that begins with a command gets no further, unless the window was missed. -/
theorem judging_leads {α : Type} {m : Step (World τ) ρ α} (hmissed : Preserves (Missed w₀) m)
    (hhalted : Leads (Halted tools w₀ stats) m (fun _ _ => False)
      (fun _ => Dropped tools w₀ stats)) :
    Leads (Judging tools w₀ stats) m (fun _ s => Missed w₀ s.host)
      (fun _ => Dropped tools w₀ stats) := by
  refine Leads.or ?_ ?_
  · exact hmissed.weaken (fun _ hs => hs) (fun _ _ hs => hs) fun _ _ hs => Or.inl hs
  · exact hhalted.weaken (fun _ hs => hs) (fun _ _ hs => hs.elim) fun _ _ hs => hs

theorem say_judging {level : LogLevel} {message : String} :
    Leads (Judging tools w₀ stats) (say c level message) (fun _ => Judging tools w₀ stats)
      (fun _ => Dropped tools w₀ stats) := by
  refine say_leads fun s line hs => ?_
  rw [hc]
  have hlater := World.did_later (o := o) (w := s.host) (.campaign (.logged line))
    (o.log line s.host.outside)
  refine hs.imp (fun hs => hs.later hlater) ?_
  intro ⟨⟨hspared, hstats⟩, hset⟩
  exact ⟨⟨hspared.did fun _ _ => Event.noConfusion, hstats⟩, hlater.sticky hset⟩

theorem format_judging :
    Leads (Judging tools w₀ stats) (format c) (fun _ s => Missed w₀ s.host)
      (fun _ => Dropped tools w₀ stats) := by
  refine judging_leads (format_preserves (missed_keeps hc)) ?_
  exact Leads.bind (call_halted hc) fun _ _ hs => hs.elim

theorem commit_judging :
    Leads (Judging tools w₀ stats) (commit c) (fun _ s => Missed w₀ s.host)
      (fun _ => Dropped tools w₀ stats) := by
  refine judging_leads (commit_preserves (missed_keeps hc)) ?_
  exact Leads.bind (call_halted hc) fun _ _ hs => hs.elim

theorem validate_pending :
    Leads (Pending tools w₀ stats) (validate c) (Tried tools w₀ stats)
      (fun _ => Dropped tools w₀ stats) := by
  refine Leads.bind (R := fun _ => Pending tools w₀ stats) (enter_leads fun _ hs => hs)
    fun _ => ?_
  refine Leads.bind (test_pending hc) fun answer => ?_
  cases answer with
  | error e =>
      refine Leads.bind (say_judging hc) fun _ => ?_
      exact Leads.pure fun _ hs => hs.tried (by simp)
  | ok v =>
      cases v with
      | failure => exact Leads.pure fun _ hs => hs.tried (by simp)
      | success =>
          refine Leads.bind (R := fun _ => Judging tools w₀ stats) (enter_leads fun _ hs => hs)
            fun _ => ?_
          have hcommit : Leads (Judging tools w₀ stats)
              (do return if ← commit c then Outcome.passed else .error) (Tried tools w₀ stats)
              (fun _ => Dropped tools w₀ stats) := by
            refine Leads.bind (commit_judging hc) fun _ => ?_
            exact Leads.pure fun _ hs => Or.inl hs
          cases c.settings.format with
          | true =>
              refine Leads.bind (format_judging hc) fun _ => ?_
              exact hcommit.weaken (fun _ hs => Or.inl hs) (fun _ _ hs => hs) fun _ _ hs => hs
          | false => exact hcommit

theorem attempt_pending {batch : List Candidate} :
    Leads (Pending tools w₀ stats) (attempt c batch) (Tried tools w₀ stats)
      (fun _ => Dropped tools w₀ stats) := by
  refine Leads.bind (R := fun _ => Pending tools w₀ stats) (enter_leads fun _ hs => hs)
    fun _ => ?_
  refine Leads.bind (edit_pending hc) fun answer => ?_
  cases answer with
  | ok _ => exact validate_pending hc
  | error e =>
      refine Leads.bind (say_judging hc) fun _ => ?_
      exact Leads.pure fun _ hs => hs.tried (by simp)

theorem finish_tried {iteration : Nat} {outcome : Outcome} {batch : List Candidate} :
    Leads (Tried tools w₀ stats outcome) (finish c iteration outcome batch)
      (fun _ s => Missed w₀ s.host) (fun _ => Dropped tools w₀ stats) := by
  refine Leads.or ?_ ?_
  · exact (finish_preserves (missed_keeps hc) iteration outcome batch).weaken
      (fun _ hs => hs) (fun _ _ hs => hs) fun _ _ hs => Or.inl hs
  · intro s ⟨houtcome, hs⟩
    unfold finish
    rw [if_pos houtcome]
    -- to discard the edits takes a command
    have hstuck : Leads (Halted tools w₀ stats) (restore c .discard) (fun _ _ => False)
        (fun _ => Dropped tools w₀ stats) :=
      Leads.bind (call_halted hc) fun _ _ hs => hs.elim
    refine (Leads.bind (R := fun _ => Halted tools w₀ stats) (enter_leads fun _ hs => hs)
      fun _ => ?_ : Leads _ _ _ _) s hs
    exact Leads.bind hstuck fun _ _ hs => hs.elim

/-- One iteration that starts in a world. -/
theorem iterate_caught :
    Leads (fun s => s.host = w₀ ∧ s.stats = stats) (iterate c) (fun _ s => Missed w₀ s.host)
      (fun _ => Dropped tools w₀ stats) := by
  refine Leads.get fun s hs => ?_
  have hstart : Pending tools w₀ stats s := by
    refine ⟨⟨[], ?_, fun _ hx => absurd hx List.not_mem_nil⟩, hs.2⟩
    rw [hs.1]
    exact .refl w₀
  refine (Leads.bind (restore_pending hc) fun _ => ?_ : Leads _ _ _ _) s hstart
  refine Leads.bind (R := fun _ => Pending tools w₀ stats) (enter_leads fun _ hs => hs)
    fun _ => ?_
  refine Leads.bind (draw_pending hc) fun batch => ?_
  refine Leads.bind (showBatch_pending hc) fun _ => ?_
  exact Leads.bind (attempt_pending hc) fun outcome => finish_tried hc

end

/-- An iteration that ends the campaign is the last one. -/
theorem run_of_iterate_error {σ : Type} {c : Setup σ ρ} {s s' : State σ ρ} {e : Failure}
    (h : (iterate c).run.run s = (.error e, s')) (hdue : isDue c.settings s.stats = true)
    (rounds : Nat) : (run c (rounds + 1)).run.run s = (.error e, s') := by
  have hunfold : (run c (rounds + 1)).run.run s
      = (if isDue c.settings s.stats then (do
          let _ ← iterate c
          run c rounds) else return true : Step σ ρ Bool).run.run s := rfl
  rw [hunfold, if_pos hdue]
  exact run_bind_error h

/-- **An interrupt is safe at any moment.**  Once the token is set, at most one more child is
started, by a command that had looked before.  If it is set before the batch of an iteration is
judged, the iteration ends the campaign: nothing is committed, no outcome is reported and nothing is
counted. -/
theorem interrupt_safe (o : Outside τ) (tools : Tools) (t : Child.Terminator) (looks : Nat)
    (crate : Crate) (settings : Settings) (parser : Parser) (source : RandomSource ρ)
    (s : State (World τ) ρ) :
    let c := o.campaign tools t looks crate settings parser source
    (∀ rounds, ∃ new, ((run c rounds).run.run s).2.host.trace = s.host.trace ++ new ∧
      lateStarts new ≤ 1 ∧ Entered new) ∧
    ∃ new, ((iterate c).run.run s).2.host.trace = s.host.trace ++ new ∧
      (Caught new →
        (∃ e, ((iterate c).run.run s).1 = .error e ∧ (isDue settings s.stats = true →
          ∀ rounds, (run c (rounds + 1)).run.run s = (.error e, ((iterate c).run.run s).2))) ∧
        ((iterate c).run.run s).2.stats = s.stats ∧ ∀ x ∈ new, x.IsHarmless tools) := by
  intro c
  have hc : c.host = o.host tools crate.root.toText t looks := rfl
  constructor
  · intro rounds
    have hkept : Preserves (FewLate s.host) (run c rounds) :=
      run_preserves (fewLate_keeps s.host) (fun _ hw => hw.did _) rounds
    have hends := hkept s (.refl s.host)
    cases hrun : (run c rounds).run.run s with
    | mk answer s' =>
        rw [hrun] at hends
        have hfew : FewLate s.host s'.host := by
          cases answer with
          | ok _ => exact hends
          | error _ => exact hends
        obtain ⟨new, hnew, hlate, hentered⟩ := hfew
        exact ⟨new, hnew.trace, hlate, hentered⟩
  · have hends := iterate_caught hc s ⟨rfl, rfl⟩
    cases hrun : (iterate c).run.run s with
    | mk answer s' =>
        rw [hrun] at hends
        cases answer with
        | ok outcome =>
            obtain ⟨new, hnew, -, hmissed⟩ := hends
            exact ⟨new, hnew.trace, fun hcaught => absurd hcaught hmissed⟩
        | error e =>
            rcases hends with ⟨new, hnew, -, hmissed⟩ | ⟨⟨new, hnew, hharmless⟩, hstats⟩
            · exact ⟨new, hnew.trace, fun hcaught => absurd hcaught hmissed⟩
            · refine ⟨new, hnew.trace, fun _ => ⟨⟨e, rfl, ?_⟩, hstats, hharmless⟩⟩
              intro hdue rounds
              exact run_of_iterate_error hrun hdue rounds

/-- Files that stay as they are, tools that succeed, and a user who interrupts once, after `n` other
requests. -/
def interruptedAfter (n : Nat) : Outside Nat where
  survey s := (Sampling.smallFiles, s)
  write _ _ s := (.ok (), s)
  display := some ⟨fun _ _ s => (.ok (), s), fun _ _ s => s⟩
  log _ s := s
  start _ s := (.ok 1, s)
  waitBriefly _ s := (some 0, s)
  wait _ s := (0, s)
  stopGroup _ s := (none, s)
  stop _ s := (none, s)
  exited? _ s := (some 0, s)
  interrupts s := (s == n, s + 1)

/-- The tools by their usual names. -/
def usualTools : Tools :=
  ⟨{ program := Cargo.usual }, { program := Git.usual }⟩

/-- The campaign over the small crate, interrupted in the wait in which the tests end. -/
def interruptedCampaign : Setup (World Nat) Unit :=
  (interruptedAfter 13).campaign usualTools .group 1 Sampling.smallCrate .default Rust.parse
    Sampling.first

/-- Nothing has happened yet. -/
def uninterrupted : State (World Nat) Unit :=
  { random := (), host := { outside := 0 } }

/-- The answer and the state of its first iteration. -/
def interrupted : Except Failure Outcome × State (World Nat) Unit :=
  (iterate interruptedCampaign).run.run uninterrupted

/-- The moment at which the tests are over with a success. -/
def Moment.passes (x : Moment) : Bool :=
  match x.act with
  | .campaign (.called .test (.ok .success)) => true
  | _ => false

/-- The tests pass, and yet nothing comes of it. -/
theorem interrupt_safe_interrupted :
    (∃ x ∈ interrupted.2.host.trace, x.passes = true) ∧ Caught interrupted.2.host.trace ∧
      (∃ e, interrupted.1 = .error e) ∧ interrupted.2.stats = {} ∧
      ∀ x ∈ interrupted.2.host.trace, x.IsHarmless usualTools := by
  have heval : (∃ x ∈ interrupted.2.host.trace, x.passes = true) ∧
      ∃ x ∈ window interrupted.2.host.trace, x.before = true ∨ x.after = true := by
    decide +kernel
  obtain ⟨hpasses, hcaught⟩ := heval
  obtain ⟨-, new, hnew, hsafe⟩ := interrupt_safe (interruptedAfter 13) usualTools .group 1
    Sampling.smallCrate .default Rust.parse Sampling.first uninterrupted
  have hall : interrupted.2.host.trace = new := hnew
  rw [hall] at hpasses hcaught ⊢
  obtain ⟨⟨e, herror, -⟩, hstats, hharmless⟩ := hsafe hcaught
  exact ⟨hpasses, hcaught, ⟨e, herror⟩, hstats, hharmless⟩

end Tighten.Campaign
