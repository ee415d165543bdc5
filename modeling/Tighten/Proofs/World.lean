import Tighten.Campaign.World

/-
How a world goes on.

Nothing that happens is taken back: the trace only gets longer, and the token, once set, stays set.
So what a moment has seen of the token is known ever after.  `Later` says this of two states of a
world and the moments between them.

A command that finds the token set starts nothing.  Any other command starts one child, and
everything else it does is waiting and looking.
-/
namespace Tighten.Campaign

variable {τ : Type} {o : Outside τ} {w w' w'' : World τ}

/-! ### Later states -/

/-- A later state of a world, with the moments in between. -/
structure World.Later (w w' : World τ) (more : List Moment) : Prop where
  trace : w'.trace = w.trace ++ more
  sticky : w.token.cancelled = true → w'.token.cancelled = true
  known : ∀ x ∈ more, x.before = true ∨ x.after = true → w'.token.cancelled = true

namespace World

theorem Later.refl (w : World τ) : w.Later w [] :=
  ⟨(List.append_nil _).symm, id, fun _ hx => absurd hx List.not_mem_nil⟩

theorem Later.trans {more more' : List Moment} (h : w.Later w' more) (h' : w'.Later w'' more') :
    w.Later w'' (more ++ more') := by
  refine ⟨?_, fun hw => h'.sticky (h.sticky hw), ?_⟩
  · rw [h'.trace, h.trace, List.append_assoc]
  · intro x hx hset
    rcases List.mem_append.mp hx with hx | hx
    · exact h'.sticky (h.known x hx hset)
    · exact h'.known x hx hset

theorem reached_trace (outside : τ) : (w.reached o outside).trace = w.trace := by
  unfold reached
  split <;> rfl

/-- The handler sets the token; otherwise it stays as it is. -/
theorem reached_sticky (outside : τ) (h : w.token.cancelled = true) :
    (w.reached o outside).token.cancelled = true := by
  unfold reached
  split
  · exact h
  · rfl

/-- The moment that a request comes to. -/
def moment (o : Outside τ) (w : World τ) (act : Act) (outside : τ) : Moment :=
  ⟨act, w.token.cancelled, (w.did o act outside).token.cancelled⟩

theorem did_later (act : Act) (outside : τ) :
    w.Later (w.did o act outside) [w.moment o act outside] := by
  refine ⟨?_, reached_sticky outside, ?_⟩
  · rw [did, noted, reached_trace]
    rfl
  · intro x hx hset
    obtain rfl := List.mem_singleton.mp hx
    rcases hset with hbefore | hafter
    · exact reached_sticky outside hbefore
    · exact hafter

/-- The moment of a request during which nothing happens to the token. -/
def still (w : World τ) (act : Act) : Moment :=
  ⟨act, w.token.cancelled, w.token.cancelled⟩

theorem noted_later (act : Act) :
    w.Later (w.noted act w.token.cancelled) [w.still act] := by
  refine ⟨rfl, id, ?_⟩
  intro x hx hset
  obtain rfl := List.mem_singleton.mp hx
  exact hset.elim id id

end World

/-! ### What commands do -/

/-- Whether whoever runs commands has asked for it. -/
def Act.isChild : Act → Bool
  | .child _ => true
  | .campaign _ => false

/-- The launch of a child, if the request is one. -/
def Act.launch? : Act → Option Child.Launch
  | .child (.started launch _) => some launch
  | _ => none

/-- A later state in between which commands have only waited and looked. -/
def World.Waits (w w' : World τ) : Prop :=
  ∃ more, w.Later w' more ∧ ∀ x ∈ more, x.act.isChild = true ∧ x.act.launch? = none

/-- The moments of a command that finds the token not set: it looks, says what it runs, starts a
child, and after that it only waits and looks. -/
def StartsOne (command : Command) (moments : List Moment) : Prop :=
  ∃ look line start rest, moments = [look, line, start] ++ rest ∧
    look.act = .child (.looked .entry false) ∧ (∃ l, line.act = .child (.logged l)) ∧
    (∃ launch result, start.act = .child (.started launch result) ∧ launch.command = command) ∧
    ∀ x ∈ rest, x.act.isChild = true ∧ x.act.launch? = none

namespace World.Waits

theorem refl (w : World τ) : w.Waits w :=
  ⟨[], .refl w, fun _ hx => absurd hx List.not_mem_nil⟩

theorem trans (h : w.Waits w') (h' : w'.Waits w'') : w.Waits w'' := by
  obtain ⟨more, hlater, hmore⟩ := h
  obtain ⟨more', hlater', hmore'⟩ := h'
  refine ⟨more ++ more', hlater.trans hlater', ?_⟩
  intro x hx
  rcases List.mem_append.mp hx with hx | hx
  · exact hmore x hx
  · exact hmore' x hx

theorem did {event : Child.Event} (outside : τ) (h : (Act.child event).launch? = none) :
    w.Waits (w.did o (.child event) outside) := by
  refine ⟨_, did_later _ _, ?_⟩
  intro x hx
  obtain rfl := List.mem_singleton.mp hx
  exact ⟨rfl, h⟩

/-- What is known of where a request ends is known of its answer's state. -/
theorem of_eq {α : Type} {x : α × World τ} {a : α} (h : w.Waits x.2) (hx : x = (a, w')) :
    w.Waits w' := by
  rw [hx] at h
  exact h

end World.Waits

namespace Outside

open World (Waits did_later)

variable (o) (t : Child.Terminator) (pid : Child.Pid)

theorem wait_waits (w : World τ) : w.Waits (o.platform.wait pid w).2 :=
  .did _ rfl

theorem terminate_waits (w : World τ) : w.Waits (t.terminate o.platform pid w).2 := by
  cases t with
  | group =>
      have hstop : w.Waits (o.platform.stopGroup pid w).2 := .did _ rfl
      unfold Child.Terminator.terminate
      dsimp only
      split
      · next w₁ h => exact (hstop.of_eq h).trans (wait_waits o pid _)
      · next w₁ h => exact hstop.of_eq h
      · next e w₁ _ h => exact hstop.of_eq h
  | native =>
      have hstop : w.Waits (o.platform.stop pid w).2 := .did _ rfl
      unfold Child.Terminator.terminate
      dsimp only
      split
      · next w₁ h => exact (hstop.of_eq h).trans (wait_waits o pid _)
      · next e w₁ h =>
          have hexited : w₁.Waits (o.platform.exited? pid w₁).2 := .did _ rfl
          split
          · next w₂ h' => exact (hstop.of_eq h).trans (hexited.of_eq h')
          · next w₂ h' => exact (hstop.of_eq h).trans (hexited.of_eq h')

theorem watch_waits (program : String) (looks : Nat) :
    ∀ w : World τ, w.Waits (Child.watch t o.platform program pid looks w).2 := by
  induction looks with
  | zero => exact fun w => .refl w
  | succ looks ih =>
      intro w
      have hlook : w.Waits (o.platform.isCancelled .poll w).2 := .did _ rfl
      unfold Child.watch
      split
      · next w₁ h =>
          have hlog : w₁.Waits
              (o.platform.log (Child.detail s!"Terminating {program} (pid {pid})") w₁) :=
            .did _ rfl
          have hstopped := ((hlook.of_eq h).trans hlog).trans (terminate_waits o t pid _)
          dsimp only
          split
          · next w₂ h' => exact hstopped.of_eq h'
          · next e w₂ h' => exact hstopped.of_eq h'
      · next w₁ h =>
          have hwait : w₁.Waits (o.platform.waitBriefly pid w₁).2 := .did _ rfl
          split
          · next status w₂ h' => exact (hlook.of_eq h).trans (hwait.of_eq h')
          · next w₂ h' => exact ((hlook.of_eq h).trans (hwait.of_eq h')).trans (ih w₂)

/-- With the token set, no child is started. -/
theorem run_of_set (looks : Nat) (h : w.token.cancelled = true) (command : Command)
    (directory : String) :
    ∃ w', Child.run t o.platform looks command directory w = (.error .cancelled, w') ∧
      w.Waits w' := by
  have hlook : o.platform.isCancelled .entry w = (true, (o.platform.isCancelled .entry w).2) :=
    Prod.ext h rfl
  refine ⟨(o.platform.isCancelled .entry w).2, ?_, .did _ rfl⟩
  unfold Child.run
  rw [hlook]

/-- Otherwise exactly one is. -/
theorem run_of_unset (looks : Nat) (h : w.token.cancelled = false) (command : Command)
    (directory : String) :
    ∃ more, w.Later (Child.run t o.platform looks command directory w).2 more ∧
      StartsOne command more := by
  have hlook : o.platform.isCancelled .entry w = (false, (o.platform.isCancelled .entry w).2) :=
    Prod.ext h rfl
  have hlooked : w.Later (o.platform.isCancelled .entry w).2
      [w.moment o (.child (.looked .entry false)) w.outside] := by
    rw [← h]
    exact did_later _ _
  unfold Child.run
  rw [hlook]
  dsimp only
  generalize (o.platform.isCancelled .entry w).2 = w₁ at hlooked
  generalize Child.detail _ = line
  have hlogged : w₁.Later (o.platform.log line w₁)
      [w₁.moment o (.child (.logged line)) (o.log line w₁.outside)] := did_later _ _
  generalize o.platform.log line w₁ = w₂ at hlogged
  let launch : Child.Launch := { command, directory, newSession := t.newSession }
  have hstarted : w₂.Later (o.platform.start launch w₂).2
      [w₂.moment o (.child (.started launch (o.start launch w₂.outside).1))
        (o.start launch w₂.outside).2] := did_later _ _
  have hdone : ∀ w', (o.platform.start launch w₂).2.Waits w' →
      ∃ more, w.Later w' more ∧ StartsOne command more := by
    intro w' ⟨rest, hlater, hrest⟩
    exact ⟨_, ((hlooked.trans hlogged).trans hstarted).trans hlater,
      _, _, _, rest, rfl, rfl, ⟨line, rfl⟩, ⟨launch, _, rfl, rfl⟩, hrest⟩
  refine hdone _ ?_
  split
  · next e w₃ h =>
      rw [h]
      exact .refl _
  · next pid w₃ h =>
      have hwatch := watch_waits o t pid command.program looks w₃
      rw [h]
      split
      · next e w₄ h' => exact hwatch.of_eq h'
      · next status w₄ h' =>
          refine (hwatch.of_eq h').trans ?_
          dsimp only
          split
          · exact .refl _
          · exact .did _ rfl

end Outside

end Tighten.Campaign
