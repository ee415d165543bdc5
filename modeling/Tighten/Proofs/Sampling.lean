import Mathlib.Data.Finset.Card
import Tighten.Proofs.Crate
import Tighten.Sampling

/-
Sampling draws as many candidates as it was asked for, or all there are.

While a batch grows, the candidates left in a file that has been read are those it offers at places
the batch does not use yet, and a file that was retired has none left.  Every draw keeps this.  A
draw also either adds to the batch or retires a file, so the size asked for plus the number of files
bounds the draws: when they end, the batch has its size or no file is left, and in the second case
the batch uses every place there is.

Nothing here depends on how the candidates of a file are found, only on a file's candidates being
its own: those of one file agree on the file, those of two files do not.
-/
namespace Tighten

/-- Where a candidate's edit is made: the file and the span in it. -/
def Candidate.place (m : Candidate) : SourceFile × Span := (m.file, m.span)

namespace Sampling

/-! ### Candidates that are left -/

theorem lookup_setRemaining_self (p : Path) (left : List Candidate) :
    ∀ r : List (Path × List Candidate), (setRemaining p left r).lookup p = some left := by
  intro r
  induction r with
  | nil => simp [setRemaining]
  | cons entry rest ih =>
      obtain ⟨q, old⟩ := entry
      by_cases h : q = p
      · simp [setRemaining, h]
      · have hb : (p == q) = false := beq_eq_false_iff_ne.mpr (Ne.symm h)
        simp [setRemaining, h, List.lookup_cons, hb, ih]

theorem lookup_setRemaining_of_ne {p q : Path} (h : q ≠ p) (left : List Candidate) :
    ∀ r : List (Path × List Candidate), (setRemaining p left r).lookup q = r.lookup q := by
  intro r
  have hb : (q == p) = false := beq_eq_false_iff_ne.mpr h
  induction r with
  | nil => simp [setRemaining, List.lookup_cons, hb]
  | cons entry rest ih =>
      obtain ⟨o, old⟩ := entry
      by_cases ho : o = p
      · subst ho
        simp [setRemaining, List.lookup_cons, hb]
      · simp [setRemaining, ho, List.lookup_cons, ih]

/-- The files that have been read, in order. -/
def Draft.opened {ρ : Type} (d : Draft ρ) : List Path := d.remaining.map Prod.fst

theorem lookup_eq_none_iff (p : Path) (r : List (Path × List Candidate)) :
    r.lookup p = none ↔ p ∉ r.map Prod.fst := by
  induction r with
  | nil => simp
  | cons entry rest ih =>
      obtain ⟨q, old⟩ := entry
      by_cases h : p = q
      · simp [h]
      · have hb : (p == q) = false := beq_eq_false_iff_ne.mpr h
        rw [List.lookup_cons, hb, List.map_cons, List.mem_cons]
        simp only [h, false_or]
        exact ih

theorem keys_setRemaining_of_mem {p : Path} (left : List Candidate)
    {r : List (Path × List Candidate)} (h : p ∈ r.map Prod.fst) :
    (setRemaining p left r).map Prod.fst = r.map Prod.fst := by
  induction r with
  | nil => simp at h
  | cons entry rest ih =>
      obtain ⟨q, old⟩ := entry
      by_cases hq : q = p
      · simp [setRemaining, hq]
      · have hrest : p ∈ rest.map Prod.fst := by
          rcases List.mem_cons.mp h with hp | hp
          · exact absurd hp.symm hq
          · exact hp
        simpa [setRemaining, hq] using ih hrest

theorem keys_setRemaining_of_not_mem {p : Path} (left : List Candidate)
    {r : List (Path × List Candidate)} (h : p ∉ r.map Prod.fst) :
    (setRemaining p left r).map Prod.fst = r.map Prod.fst ++ [p] := by
  induction r with
  | nil => simp [setRemaining]
  | cons entry rest ih =>
      obtain ⟨q, old⟩ := entry
      simp only [List.map_cons, List.mem_cons, not_or] at h
      simpa [setRemaining, Ne.symm h.1] using ih h.2

/-! ### What a growing batch keeps -/

section

variable {ρ : Type} {discover : Finder (Except WalkError)} {source : RandomSource ρ}
  {paths : List Path} {total : Int}

/-- The candidate is one of a file's. -/
def Offers (discover : Finder (Except WalkError)) (p : Path) (m : Candidate) : Prop :=
  ∃ found log, discover p = .ok (found, log) ∧ m ∈ found

/-- The candidates of a file are its own. -/
structure Separates (discover : Finder (Except WalkError)) : Prop where
  same : ∀ {p m n}, Offers discover p m → Offers discover p n → m.file = n.file
  apart : ∀ {p q m n}, Offers discover p m → Offers discover q n → m.file = n.file → p = q

/-- What holds of a batch that grows from the files of `paths`. -/
structure Sound (discover : Finder (Except WalkError)) (paths : List Path) (d : Draft ρ) :
    Prop where
  live : ∀ p ∈ d.live, p ∈ paths
  left : ∀ {p left}, d.remaining.lookup p = some left →
    ∀ m, m ∈ left ↔ Offers discover p m ∧ m.place ∉ d.batch.map Candidate.place
  offered : ∀ m ∈ d.batch, ∃ p ∈ paths, d.remaining.lookup p ≠ none ∧ Offers discover p m
  distinct : (d.batch.map Candidate.place).Nodup
  dry : ∀ p ∈ paths, p ∉ d.live → d.remaining.lookup p = some []

theorem start_sound (paths : List Path) (random : ρ) (log : List LogLine) :
    Sound discover paths (Draft.start paths random log) where
  live := fun _ hp => hp
  left := by intro p left h; simp [Draft.start] at h
  offered := by intro m hm; simp [Draft.start] at hm
  distinct := by simp [Draft.start]
  dry := fun _ hp hlive => absurd hp hlive

/-- Reading a file changes neither the batch nor the files that may have a candidate. -/
theorem leftIn_cases {p : Path} {d d' : Draft ρ} {left : List Candidate}
    (h : leftIn discover p d = .ok (left, d')) :
    (d.remaining.lookup p = some left ∧ d' = d) ∨
    (d.remaining.lookup p = none ∧ ∃ log, discover p = .ok (left, log) ∧
      d' = { d with remaining := setRemaining p left d.remaining, log := d.log ++ log }) := by
  unfold leftIn at h
  cases hlook : d.remaining.lookup p with
  | some old =>
      simp only [hlook, pure_eq_ok, Prod.mk.injEq] at h
      exact Or.inl ⟨by rw [h.1], h.2.symm⟩
  | none =>
      simp only [hlook, bind_eq_ok, pure_eq_ok, Prod.mk.injEq] at h
      obtain ⟨⟨found, log⟩, hfind, rfl, rfl⟩ := h
      exact Or.inr ⟨rfl, log, hfind, rfl⟩

theorem leftIn_sound (hsep : Separates discover) {p : Path} {d d' : Draft ρ}
    {left : List Candidate} (hd : Sound discover paths d)
    (h : leftIn discover p d = .ok (left, d')) :
    Sound discover paths d' ∧ d'.remaining.lookup p = some left ∧ d'.batch = d.batch ∧
      d'.live = d.live := by
  rcases leftIn_cases h with ⟨hlook, rfl⟩ | ⟨hlook, log, hfind, rfl⟩
  · exact ⟨hd, hlook, rfl, rfl⟩
  refine ⟨⟨hd.live, ?_, ?_, hd.distinct, ?_⟩, lookup_setRemaining_self p left _, rfl, rfl⟩
  · intro q found hq m
    by_cases hqp : q = p
    · subst hqp
      rw [lookup_setRemaining_self] at hq
      obtain rfl := Option.some.inj hq
      constructor
      · intro hm
        refine ⟨⟨left, log, hfind, hm⟩, ?_⟩
        -- A place the batch uses belongs to a file that was read before.
        intro hused
        obtain ⟨b, hb, hplace⟩ := List.mem_map.mp hused
        obtain ⟨o, _, hread, hoffer⟩ := hd.offered b hb
        have hfile : b.file = m.file := congrArg Prod.fst hplace
        exact hread (hsep.apart hoffer ⟨left, log, hfind, hm⟩ hfile ▸ hlook)
      · rintro ⟨⟨found, log', hfind', hm⟩, -⟩
        rw [hfind] at hfind'
        obtain ⟨rfl, -⟩ := Prod.mk.inj (Except.ok.inj hfind')
        exact hm
    · rw [lookup_setRemaining_of_ne hqp] at hq
      exact hd.left hq m
  · intro m hm
    obtain ⟨q, hq, hread, hoffer⟩ := hd.offered m hm
    refine ⟨q, hq, ?_, hoffer⟩
    have hqp : q ≠ p := fun hc => hread (hc ▸ hlook)
    rwa [lookup_setRemaining_of_ne hqp]
  · intro q hq hlive
    have hdry := hd.dry q hq hlive
    have hqp : q ≠ p := by
      intro hc
      rw [hc, hlook] at hdry
      exact absurd hdry (by simp)
    rwa [lookup_setRemaining_of_ne hqp]

/-- Taking from a file retires it if it has nothing left, and otherwise moves one candidate from the
file to the batch. -/
theorem take_cases (hsource : source.Lawful) (p : Path) (left : List Candidate) (d : Draft ρ) :
    (left = [] ∧ take source p left d = { d with live := d.live.erase p }) ∨
    ∃ shuffled chosen random, (shuffled ++ [chosen]).Perm left ∧
      take source p left d = { d with
        batch := d.batch ++ [chosen]
        remaining := setRemaining p (shuffled.filter fun m => m.span != chosen.span) d.remaining
        random } := by
  unfold take
  by_cases hempty : left = []
  · exact Or.inl ⟨hempty, by simp [hempty]⟩
  have hperm := hsource.shuffle_perm left d.random
  have hne : (source.shuffle left d.random).1 ≠ [] := by
    intro hc
    rw [hc] at hperm
    exact hempty (List.nil_perm.mp hperm)
  refine Or.inr ⟨(source.shuffle left d.random).1.dropLast,
    (source.shuffle left d.random).1.getLast hne, (source.shuffle left d.random).2, ?_, ?_⟩
  · rw [List.dropLast_append_getLast hne]
    exact hperm
  · simp [hempty, List.getLast?_eq_some_getLast hne]

theorem take_sound (hsep : Separates discover) (hsource : source.Lawful) {p : Path}
    {d : Draft ρ} {left : List Candidate} (hd : Sound discover paths d) (hp : p ∈ paths)
    (hleft : d.remaining.lookup p = some left) (hlive : p ∈ d.live) :
    Sound discover paths (take source p left d) := by
  rcases take_cases hsource p left d with ⟨hempty, heq⟩ | ⟨others, chosen, random, hperm, heq⟩
  · rw [heq]
    refine ⟨fun q hq => hd.live q (List.mem_of_mem_erase hq), hd.left, hd.offered,
      hd.distinct, ?_⟩
    intro q hq hgone
    by_cases hqp : q = p
    · rw [hqp, ← hempty]
      exact hleft
    · exact hd.dry q hq fun hc => hgone ((List.mem_erase_of_ne hqp).mpr hc)
  rw [heq]
  have hmem : ∀ m, m ∈ left ↔ m ∈ others ∨ m = chosen := by
    intro m
    rw [← hperm.mem_iff, List.mem_append, List.mem_singleton]
  obtain ⟨hchosen, hunused⟩ := (hd.left hleft chosen).mp ((hmem chosen).mpr (Or.inr rfl))
  refine ⟨hd.live, ?_, ?_, ?_, ?_⟩
  · intro q found hq m
    simp only [List.map_append, List.map_cons, List.map_nil, List.mem_append, List.mem_singleton,
      not_or]
    by_cases hqp : q = p
    · subst hqp
      rw [lookup_setRemaining_self] at hq
      obtain rfl := Option.some.inj hq
      rw [List.mem_filter, bne_iff_ne]
      constructor
      · rintro ⟨hm, hspan⟩
        obtain ⟨hoffer, hfresh⟩ := (hd.left hleft m).mp ((hmem m).mpr (Or.inl hm))
        exact ⟨hoffer, hfresh, fun hc => hspan (congrArg Prod.snd hc)⟩
      · rintro ⟨hoffer, hfresh, hplace⟩
        -- In one file, another place is another span.
        have hspan : m.span ≠ chosen.span := fun hc =>
          hplace (Prod.ext (hsep.same hoffer hchosen) hc)
        rcases (hmem m).mp ((hd.left hleft m).mpr ⟨hoffer, hfresh⟩) with hm | hm
        · exact ⟨hm, hspan⟩
        · exact absurd (congrArg Candidate.span hm) hspan
    · rw [lookup_setRemaining_of_ne hqp] at hq
      rw [hd.left hq m]
      refine ⟨fun h => ⟨h.1, h.2, ?_⟩, fun h => ⟨h.1, h.2.1⟩⟩
      intro hc
      exact hqp (hsep.apart h.1 hchosen (congrArg Prod.fst hc))
  · intro m hm
    have hread : ∀ q, d.remaining.lookup q ≠ none →
        (setRemaining p (others.filter fun m => m.span != chosen.span) d.remaining).lookup q
          ≠ none := by
      intro q hq
      by_cases hqp : q = p
      · rw [hqp, lookup_setRemaining_self]
        simp
      · rwa [lookup_setRemaining_of_ne hqp]
    rcases List.mem_append.mp hm with hm | hm
    · obtain ⟨q, hq, hlook, hoffer⟩ := hd.offered m hm
      exact ⟨q, hq, hread q hlook, hoffer⟩
    · rw [List.mem_singleton.mp hm]
      exact ⟨p, hp, hread p (by rw [hleft]; simp), hchosen⟩
  · rw [List.map_append, List.map_cons, List.map_nil, List.nodup_append]
    refine ⟨hd.distinct, by simp, ?_⟩
    intro a ha b hb hab
    rw [hab, List.mem_singleton.mp hb] at ha
    exact hunused ha
  · intro q hq hgone
    have hqp : q ≠ p := fun hc => hgone (hc ▸ hlive)
    rw [lookup_setRemaining_of_ne hqp]
    exact hd.dry q hq hgone

/-! ### Every draw fills a slot or retires a file -/

/-- The slots to fill and the files that may still have a candidate. -/
def slack (total : Int) (d : Draft ρ) : Nat := (total - d.batch.length).toNat + d.live.length

theorem start_slack (htotal : 0 ≤ total) (paths : List Path) (random : ρ) (log : List LogLine) :
    slack total (Draft.start paths random log) ≤ (total + paths.length).toNat := by
  simp only [slack, Draft.start, List.length_nil]
  omega

theorem not_isDone_iff {d : Draft ρ} :
    isDone total d = false ↔ (d.batch.length : Int) < total ∧ d.live ≠ [] := by
  simp [isDone]

theorem turn_cases (hsource : source.Lawful) {d d' : Draft ρ} (hlive : d.live ≠ [])
    (h : turn discover source d = .ok d') :
    ∃ p ∈ d.live, ∃ random left d₁,
      leftIn discover p { d with random } = .ok (left, d₁) ∧ d' = take source p left d₁ := by
  have hlt := hsource.index_lt d.live.length d.random (List.length_pos_iff.mpr hlive)
  unfold turn at h
  generalize source.index d.live.length d.random = drawn at h hlt
  obtain ⟨i, random⟩ := drawn
  simp only [List.getElem?_eq_getElem hlt] at h
  simp only [bind_eq_ok, pure_eq_ok] at h
  obtain ⟨⟨left, d₁⟩, hleft, rfl⟩ := h
  exact ⟨d.live[i], List.getElem_mem hlt, random, left, d₁, hleft, rfl⟩

theorem turn_sound (hsep : Separates discover) (hsource : source.Lawful) {d d' : Draft ρ}
    (hlive : d.live ≠ []) (hd : Sound discover paths d)
    (h : turn discover source d = .ok d') : Sound discover paths d' := by
  obtain ⟨p, hp, random, left, d₁, hleft, rfl⟩ := turn_cases hsource hlive h
  have hd₀ : Sound discover paths { d with random } :=
    ⟨hd.live, hd.left, hd.offered, hd.distinct, hd.dry⟩
  obtain ⟨hd₁, hlook, -, hlive₁⟩ := leftIn_sound hsep hd₀ hleft
  refine take_sound hsep hsource hd₁ (hd.live p hp) hlook ?_
  rw [hlive₁]
  exact hp

theorem turn_slack (hsource : source.Lawful) {d d' : Draft ρ} (hdue : isDone total d = false)
    (h : turn discover source d = .ok d') :
    slack total d' + 1 = slack total d ∧ (d'.batch.length : Int) ≤ total := by
  obtain ⟨hsize, hlive⟩ := not_isDone_iff.mp hdue
  obtain ⟨p, hp, random, left, d₁, hleft, rfl⟩ := turn_cases hsource hlive h
  have hframe : d₁.batch = d.batch ∧ d₁.live = d.live := by
    rcases leftIn_cases hleft with ⟨-, rfl⟩ | ⟨-, log, -, rfl⟩ <;> exact ⟨rfl, rfl⟩
  rcases take_cases hsource p left d₁ with ⟨-, heq⟩ | ⟨others, chosen, random', -, heq⟩
  · rw [heq]
    have hlen := List.length_erase_of_mem hp
    have hpos := List.length_pos_of_mem hp
    simp only [slack, hframe.1, hframe.2]
    omega
  · rw [heq]
    simp only [slack, hframe.1, hframe.2, List.length_append, List.length_cons, List.length_nil]
    omega

/-! ### Whole runs -/

theorem fill_of_isDone {d : Draft ρ} (h : isDone total d = true) :
    ∀ draws : Nat, fill discover source total draws d = .ok d
  | 0 => rfl
  | _ + 1 => by simp [fill, h, pure, Except.pure]

theorem fill_of_due {d : Draft ρ} (h : isDone total d = false) (draws : Nat) :
    fill discover source total (draws + 1) d
      = turn discover source d >>= fill discover source total draws := by
  simp [fill, h]

theorem isDone_of_slack {d : Draft ρ} (h : slack total d = 0) : isDone total d = true := by
  have hlive : d.live.length = 0 := by
    unfold slack at h
    omega
  simp [isDone, List.length_eq_zero_iff.mp hlive]

/-- What every draw keeps, a run of draws keeps. -/
theorem fill_keeps {P : Draft ρ → Prop}
    (hturn : ∀ {d d'}, isDone total d = false → P d → turn discover source d = .ok d' → P d') :
    ∀ (draws : Nat) {d d' : Draft ρ}, P d →
      fill discover source total draws d = .ok d' → P d' := by
  intro draws
  induction draws with
  | zero =>
      intro d d' hd h
      obtain rfl := Except.ok.inj h
      exact hd
  | succ draws ih =>
      intro d d' hd h
      cases hdone : isDone total d with
      | true =>
          rw [fill_of_isDone hdone] at h
          obtain rfl := Except.ok.inj h
          exact hd
      | false =>
          rw [fill_of_due hdone, bind_eq_ok] at h
          obtain ⟨d₁, hd₁, hrest⟩ := h
          exact ih (hturn hdone hd hd₁) hrest

theorem fill_sound (hsep : Separates discover) (hsource : source.Lawful) {draws : Nat}
    {d d' : Draft ρ} (hd : Sound discover paths d)
    (h : fill discover source total draws d = .ok d') : Sound discover paths d' :=
  fill_keeps (fun hdue hd => turn_sound hsep hsource (not_isDone_iff.mp hdue).2 hd) draws hd h

theorem fill_size (hsource : source.Lawful) {draws : Nat} {d d' : Draft ρ}
    (hd : (d.batch.length : Int) ≤ total) (h : fill discover source total draws d = .ok d') :
    (d'.batch.length : Int) ≤ total :=
  fill_keeps (P := fun d => (d.batch.length : Int) ≤ total)
    (fun hdue _ hturn => (turn_slack hsource hdue hturn).2) draws hd h

/-- With a draw for every slot and every file, there is nothing more to draw in the end. -/
theorem fill_isDone (hsource : source.Lawful) :
    ∀ (draws : Nat) {d d' : Draft ρ}, slack total d ≤ draws →
      fill discover source total draws d = .ok d' → isDone total d' = true := by
  intro draws
  induction draws with
  | zero =>
      intro d d' hslack h
      obtain rfl := Except.ok.inj h
      exact isDone_of_slack (by omega)
  | succ draws ih =>
      intro d d' hslack h
      cases hdone : isDone total d with
      | true =>
          rw [fill_of_isDone hdone] at h
          obtain rfl := Except.ok.inj h
          exact hdone
      | false =>
          rw [fill_of_due hdone, bind_eq_ok] at h
          obtain ⟨d₁, hturn, hrest⟩ := h
          have := (turn_slack hsource hdone hturn).1
          exact ih (by omega) hrest

/-- More draws than one for every slot and every file change nothing. -/
theorem fill_add (hsource : source.Lawful) (more : Nat) :
    ∀ (draws : Nat) (d : Draft ρ), slack total d ≤ draws →
      fill discover source total (draws + more) d = fill discover source total draws d := by
  intro draws
  induction draws with
  | zero =>
      intro d hslack
      have hdone : isDone total d = true := isDone_of_slack (by omega)
      rw [fill_of_isDone hdone, fill_of_isDone hdone]
  | succ draws ih =>
      intro d hslack
      cases hdone : isDone total d with
      | true => rw [fill_of_isDone hdone, fill_of_isDone hdone]
      | false =>
          rw [Nat.add_right_comm, fill_of_due hdone, fill_of_due hdone]
          cases hturn : turn discover source d with
          | error e => rfl
          | ok d₁ =>
              have := (turn_slack hsource hdone hturn).1
              exact ih d₁ (by omega)

theorem turn_ok (source : RandomSource ρ) (hlist : ∀ p ∈ paths, ∃ r, discover p = .ok r)
    {d : Draft ρ} (hd : Sound discover paths d) : ∃ d', turn discover source d = .ok d' := by
  unfold turn
  generalize source.index d.live.length d.random = drawn
  obtain ⟨i, random⟩ := drawn
  cases hp : d.live[i]? with
  | none => simp [hp]
  | some p =>
      obtain ⟨r, hr⟩ := hlist p (hd.live p (List.mem_of_getElem? hp))
      simp only [hp, leftIn]
      cases d.remaining.lookup p with
      | none => exact ⟨_, by rw [hr]; rfl⟩
      | some left => exact ⟨_, rfl⟩

/-- Where every file can be listed, the draws come to an end. -/
theorem fill_ok (hsep : Separates discover) (hsource : source.Lawful)
    (hlist : ∀ p ∈ paths, ∃ r, discover p = .ok r) :
    ∀ (draws : Nat) {d : Draft ρ}, Sound discover paths d →
      ∃ d', fill discover source total draws d = .ok d' := by
  intro draws
  induction draws with
  | zero => intro d _; exact ⟨d, rfl⟩
  | succ draws ih =>
      intro d hd
      cases hdone : isDone total d with
      | true => exact ⟨d, fill_of_isDone hdone _⟩
      | false =>
          have hlive := (not_isDone_iff.mp hdone).2
          obtain ⟨d₁, hturn⟩ := turn_ok source hlist hd
          obtain ⟨d', hrest⟩ := ih (turn_sound hsep hsource hlive hd hturn)
          exact ⟨d', by rw [fill_of_due hdone, hturn]; exact hrest⟩

/-! ### Each file is read once

The record of a run begins with the files read before it and grows by a file only when that file has
not been read.  It is the list of the files of which candidates are kept.
-/

theorem leftIn_recorded (discover : Finder (Except WalkError)) (p : Path) (d : Draft ρ) :
    (leftIn (recorded discover) p d).run.run d.opened
      = (leftIn discover p d, if p ∈ d.opened then d.opened else d.opened ++ [p]) := by
  cases hlook : d.remaining.lookup p with
  | some left =>
      have hmem : p ∈ d.opened := by
        by_contra hc
        rw [(lookup_eq_none_iff p d.remaining).mpr hc] at hlook
        exact absurd hlook (by simp)
      simp only [leftIn, hlook, hmem, if_true]
      rfl
  | none =>
      have hmem : p ∉ d.opened := (lookup_eq_none_iff p d.remaining).mp hlook
      simp only [leftIn, hlook, hmem, if_false]
      cases hfind : discover p with
      | error e => simp only [recorded, hfind]; rfl
      | ok r => simp only [recorded, hfind]; rfl

theorem opened_leftIn {p : Path} {d d' : Draft ρ} {left : List Candidate}
    (h : leftIn discover p d = .ok (left, d')) :
    p ∈ d'.opened ∧ d'.opened = if p ∈ d.opened then d.opened else d.opened ++ [p] := by
  rcases leftIn_cases h with ⟨hlook, rfl⟩ | ⟨hlook, log, -, rfl⟩
  · have hmem : p ∈ d'.opened := by
      by_contra hc
      rw [(lookup_eq_none_iff p d'.remaining).mpr hc] at hlook
      exact absurd hlook (by simp)
    exact ⟨hmem, by rw [if_pos hmem]⟩
  · have hmem : p ∉ d.opened := (lookup_eq_none_iff p d.remaining).mp hlook
    have hkeys := keys_setRemaining_of_not_mem left hmem
    rw [if_neg hmem]
    refine ⟨?_, hkeys⟩
    show p ∈ (setRemaining p left d.remaining).map Prod.fst
    rw [hkeys]
    simp

theorem opened_take (hsource : source.Lawful) {p : Path} {d : Draft ρ} (left : List Candidate)
    (hp : p ∈ d.opened) : (take source p left d).opened = d.opened := by
  rcases take_cases hsource p left d with ⟨-, heq⟩ | ⟨others, chosen, random, -, heq⟩
  · rw [heq]
    rfl
  · rw [heq]
    exact keys_setRemaining_of_mem _ hp

/-- The record of a draw: the draw itself is the same, and a file that is added was not there. -/
theorem turn_recorded (discover : Finder (Except WalkError)) (hsource : source.Lawful)
    {d : Draft ρ} (hlive : d.live ≠ []) (hopen : d.opened.Nodup) :
    ∃ opened, (turn (recorded discover) source d).run.run d.opened
        = (turn discover source d, opened) ∧ opened.Nodup ∧
      ∀ d', turn discover source d = .ok d' → opened = d'.opened := by
  have hlt := hsource.index_lt d.live.length d.random (List.length_pos_iff.mpr hlive)
  unfold turn
  generalize source.index d.live.length d.random = drawn at hlt
  obtain ⟨i, random⟩ := drawn
  simp only [List.getElem?_eq_getElem hlt]
  set p := d.live[i]
  set d₀ : Draft ρ := { d with random }
  have hrec := leftIn_recorded discover p d₀
  refine ⟨if p ∈ d₀.opened then d₀.opened else d₀.opened ++ [p], ?_, ?_, ?_⟩
  · cases hleft : leftIn discover p d₀ with
    | error e => exact run_bind_error (hleft ▸ hrec)
    | ok r => exact run_bind_ok (hleft ▸ hrec)
  · split
    · exact hopen
    · next hp => exact List.nodup_append.mpr ⟨hopen, by simp, by grind⟩
  · intro d' h
    rw [bind_eq_ok] at h
    obtain ⟨⟨left, d₁⟩, hleft, h⟩ := h
    obtain ⟨hmem, hkeys⟩ := opened_leftIn hleft
    rw [← hkeys, ← pure_eq_ok.mp h]
    exact (opened_take hsource left hmem).symm

theorem fill_recorded (discover : Finder (Except WalkError)) (hsource : source.Lawful)
    (total : Int) :
    ∀ (draws : Nat) {d : Draft ρ}, d.opened.Nodup →
      ∃ opened, (fill (recorded discover) source total draws d).run.run d.opened
          = (fill discover source total draws d, opened) ∧ opened.Nodup ∧
        ∀ d', fill discover source total draws d = .ok d' → opened = d'.opened := by
  intro draws
  induction draws with
  | zero =>
      intro d hopen
      exact ⟨d.opened, rfl, hopen, fun d' h => by rw [Except.ok.inj h]⟩
  | succ draws ih =>
      intro d hopen
      cases hdone : isDone total d with
      | true =>
          refine ⟨d.opened, ?_, hopen, ?_⟩
          · simp only [fill, hdone, if_true]
            rfl
          · intro d' h
            rw [fill_of_isDone hdone] at h
            rw [Except.ok.inj h]
      | false =>
          have hlive := (not_isDone_iff.mp hdone).2
          obtain ⟨opened₁, hrec, hopen₁, hkeys⟩ := turn_recorded discover hsource hlive hopen
          have hfill : fill (recorded discover) source total (draws + 1) d
              = turn (recorded discover) source d
                >>= fill (recorded discover) source total draws := by
            simp [fill, hdone]
          rw [hfill, fill_of_due hdone]
          cases hturn : turn discover source d with
          | error e =>
              rw [hturn] at hrec
              exact ⟨opened₁, run_bind_error hrec, hopen₁, fun d' h => by cases h⟩
          | ok d₁ =>
              rw [hturn] at hrec
              obtain rfl := hkeys d₁ hturn
              obtain ⟨opened, hrest, hnodup, hlast⟩ := ih hopen₁
              exact ⟨opened, by rw [run_bind_ok hrec]; exact hrest, hnodup, hlast⟩

/-- What is logged when a file is listed. -/
def warnings (discover : Finder (Except WalkError)) (p : Path) : List LogLine :=
  match discover p with
  | .ok (_, log) => log
  | .error _ => []

/-- The log holds, after what was there, what is logged about each file that was read. -/
def Logged (discover : Finder (Except WalkError)) (before : List LogLine) (d : Draft ρ) : Prop :=
  d.log = before ++ d.opened.flatMap (warnings discover)

theorem leftIn_logged {before : List LogLine} {p : Path} {d d' : Draft ρ}
    {left : List Candidate} (hd : Logged discover before d)
    (h : leftIn discover p d = .ok (left, d')) : Logged discover before d' := by
  obtain ⟨-, hkeys⟩ := opened_leftIn h
  rcases leftIn_cases h with ⟨-, rfl⟩ | ⟨hlook, log, hfind, rfl⟩
  · exact hd
  have hnew : p ∉ d.opened := (lookup_eq_none_iff p d.remaining).mp hlook
  have hwarn : warnings discover p = log := by simp [warnings, hfind]
  unfold Logged at hd ⊢
  rw [hkeys, if_neg hnew, List.flatMap_append, List.flatMap_singleton, hwarn,
    ← List.append_assoc, ← hd]

theorem turn_logged (hsource : source.Lawful) {before : List LogLine} {d d' : Draft ρ}
    (hlive : d.live ≠ []) (hd : Logged discover before d)
    (h : turn discover source d = .ok d') : Logged discover before d' := by
  obtain ⟨p, -, random, left, d₁, hleft, rfl⟩ := turn_cases hsource hlive h
  have hd₀ : Logged discover before { d with random } := hd
  have hd₁ := leftIn_logged hd₀ hleft
  have hlog : (take source p left d₁).log = d₁.log := by
    rcases take_cases hsource p left d₁ with ⟨-, heq⟩ | ⟨others, chosen, random', -, heq⟩ <;>
      rw [heq]
  unfold Logged at hd₁ ⊢
  rw [hlog, opened_take hsource left (opened_leftIn hleft).1]
  exact hd₁

theorem fill_logged (hsource : source.Lawful) {before : List LogLine} {draws : Nat}
    {d d' : Draft ρ} (hd : Logged discover before d)
    (h : fill discover source total draws d = .ok d') : Logged discover before d' :=
  fill_keeps (fun hdue hd => turn_logged hsource (not_isDone_iff.mp hdue).2 hd) draws hd h

/-! ### Draws that do not come to an end -/

theorem reached_of_isDone {d : Draft ρ} (h : isDone total d = true) :
    ∀ draws : Nat, reached discover source total draws d = d
  | 0 => rfl
  | _ + 1 => by simp [reached, h]

/-- Where the draws come to an end, their end is what was reached. -/
theorem reached_of_fill {draws : Nat} {d d' : Draft ρ}
    (h : fill discover source total draws d = .ok d') :
    reached discover source total draws d = d' := by
  induction draws generalizing d with
  | zero => exact Except.ok.inj h
  | succ draws ih =>
      cases hdone : isDone total d with
      | true =>
          rw [fill_of_isDone hdone] at h
          rw [reached_of_isDone hdone]
          exact Except.ok.inj h
      | false =>
          rw [fill_of_due hdone, bind_eq_ok] at h
          obtain ⟨d₁, hd₁, hrest⟩ := h
          simp only [reached, hdone, Bool.false_eq_true, if_false, hd₁]
          exact ih hrest

/-- The log accounts for every file that was listed, also where another one then cannot be. -/
theorem reached_logged (hsource : source.Lawful) {before : List LogLine} {draws : Nat}
    {d : Draft ρ} (hd : Logged discover before d) :
    Logged discover before (reached discover source total draws d) := by
  induction draws generalizing d with
  | zero => exact hd
  | succ draws ih =>
      unfold reached
      split
      · exact hd
      · next hdue =>
          split
          · next d₁ hd₁ =>
              have hlive := (not_isDone_iff.mp (Bool.eq_false_iff.mpr hdue)).2
              exact ih (turn_logged hsource hlive hd hd₁)
          · exact hd

end

/-! ### Sampling a crate -/

section

variable {ρ : Type} {source : RandomSource ρ} {parser : Parser} {w : Workspace} {c : Crate}

theorem candidatesAt_separates (parser : Parser) (w : Workspace) (c : Crate) :
    Separates (c.candidatesAt parser w) where
  same := by
    rintro p m n ⟨found, log, h, hm⟩ ⟨found', log', h', hn⟩
    have hm := (Crate.candidatesAt_mem h hm).1
    rw [(Crate.candidatesAt_mem h' hn).1] at hm
    exact (Except.ok.inj hm).symm
  apart := by
    rintro p q m n ⟨found, log, h, hm⟩ ⟨found', log', h', hn⟩ hfile
    obtain ⟨-, -, -, -, hp⟩ := SourceFile.load_eq_ok (Crate.candidatesAt_mem h hm).1
    obtain ⟨-, -, -, -, hq⟩ := SourceFile.load_eq_ok (Crate.candidatesAt_mem h' hn).1
    rw [← hp, ← hq, hfile]

theorem sample_eq {least most total : Int} {random random' : ρ} {d : Draft ρ}
    (hrange : least ≤ most) (hdrawn : source.between least most random = (total, random'))
    (hgrowth : growth (c.candidatesAt parser w) source w c total random' = .ok d) :
    sample parser source w c least most random =
      if c.sourcePaths w = [] then ⟨.error (.noFiles c.sources), random, c.skipLog w⟩
      else if d.batch = [] then ⟨.error (.noCandidates c.sources), d.random, d.log⟩
      else ⟨.ok d.batch, d.random, d.log ++ summary d.batch.length total⟩ := by
  simp only [sample, RandomSource.integer, List.isEmpty_iff, Int.not_lt.mpr hrange, if_false,
    hdrawn, hgrowth]

/-- Where a file cannot be listed, there is a log of what was skipped and listed before it. -/
theorem log_of_walk (hsource : source.Lawful) {least most : Int} {random : ρ} {e : WalkError}
    (h : (sample parser source w c least most random).batch = .error (.walk e)) :
    ∃ opened : List Path, (sample parser source w c least most random).log =
      c.skipLog w ++ opened.flatMap (warnings (c.candidatesAt parser w)) := by
  unfold sample at h ⊢
  dsimp only at h ⊢
  split at h
  · cases h
  · next hpaths =>
      rw [if_neg hpaths]
      split at h
      · cases h
      · next total random' _ =>
          split at h
          · have hstart : Logged (c.candidatesAt parser w) (c.skipLog w)
                (Draft.start (c.sourcePaths w) random' (c.skipLog w)) := (List.append_nil _).symm
            exact ⟨_, reached_logged hsource hstart⟩
          · split at h <;> cases h

/-- A batch comes from a run of draws. -/
theorem growth_of_sample {least most : Int} {random : ρ} {batch : List Candidate}
    (h : (sample parser source w c least most random).batch = .ok batch) :
    ∃ total random' d, growth (c.candidatesAt parser w) source w c total random' = .ok d ∧
      d.batch = batch := by
  unfold sample at h
  simp only at h
  split at h
  · cases h
  · split at h
    · cases h
    · next total random' _ =>
        split at h
        · cases h
        · next d hfill =>
            split at h
            · cases h
            · exact ⟨total, random', d, hfill, Except.ok.inj h⟩

/-- The batch at the end of the draws: of the size asked for, or with a candidate for every place
that the files offer. -/
theorem growth_exact (hsource : source.Lawful) {total : Int} (htotal : 0 ≤ total) {random : ρ}
    {d : Draft ρ} {all : List Candidate}
    (hall : ∀ m, m ∈ all ↔ ∃ p ∈ c.sourcePaths w, Offers (c.candidatesAt parser w) p m)
    (h : growth (c.candidatesAt parser w) source w c total random = .ok d) :
    (d.batch.length : Int) = min total (all.map Candidate.place).toFinset.card ∧
      (∀ m ∈ d.batch, m ∈ all) ∧ (d.batch.map Candidate.place).Nodup := by
  have hsep := candidatesAt_separates parser w c
  have hsound := fill_sound hsep hsource (start_sound _ random _) h
  have hsize := fill_size hsource (show ((Draft.start (c.sourcePaths w) random
    (c.skipLog w)).batch.length : Int) ≤ total from htotal) h
  have hdone := fill_isDone hsource _ (start_slack htotal _ _ _) h
  have hmem : ∀ m ∈ d.batch, m ∈ all := by
    intro m hm
    obtain ⟨p, hp, -, hoffer⟩ := hsound.offered m hm
    exact (hall m).mpr ⟨p, hp, hoffer⟩
  refine ⟨?_, hmem, hsound.distinct⟩
  have hcard : (d.batch.map Candidate.place).toFinset.card = d.batch.length := by
    rw [List.toFinset_card_of_nodup hsound.distinct, List.length_map]
  have hsub : (d.batch.map Candidate.place).toFinset ⊆ (all.map Candidate.place).toFinset := by
    intro x hx
    obtain ⟨m, hm, rfl⟩ := List.mem_map.mp (List.mem_toFinset.mp hx)
    exact List.mem_toFinset.mpr (List.mem_map_of_mem (hmem m hm))
  have hle := Finset.card_le_card hsub
  rw [isDone, Bool.or_eq_true, decide_eq_true_eq] at hdone
  rcases hdone with hfull | hlive
  · omega
  -- No file is left, so the batch uses every place.
  have hge : (all.map Candidate.place).toFinset ⊆ (d.batch.map Candidate.place).toFinset := by
    intro x hx
    obtain ⟨m, hm, rfl⟩ := List.mem_map.mp (List.mem_toFinset.mp hx)
    obtain ⟨p, hp, hoffer⟩ := (hall m).mp hm
    have hdry := hsound.dry p hp (by rw [List.isEmpty_iff.mp hlive]; exact List.not_mem_nil)
    by_contra hunused
    have := (hsound.left hdry m).mpr ⟨hoffer, fun hc => hunused (List.mem_toFinset.mpr hc)⟩
    exact absurd this List.not_mem_nil
  have hle' := Finset.card_le_card hge
  omega

theorem growth_of_no_paths {discover : Finder (Except WalkError)} {total : Int} {random : ρ}
    (h : c.sourcePaths w = []) :
    growth discover source w c total random = .ok (Draft.start [] random (c.skipLog w)) := by
  rw [growth, h]
  exact fill_of_isDone (by simp [isDone, Draft.start]) _

/-- The files that the draws read, each once, account for all that is logged on the way. -/
theorem growth_recorded (hsource : source.Lawful) (discover : Finder (Except WalkError))
    (w : Workspace) (c : Crate) (total : Int) (random : ρ) :
    ∃ opened : List Path, opened.Nodup ∧
      (growth (recorded discover) source w c total random).run.run []
        = (growth discover source w c total random, opened) ∧
      ∀ d, growth discover source w c total random = .ok d →
        d.log = c.skipLog w ++ opened.flatMap (warnings discover) := by
  have hstart : (Draft.start (c.sourcePaths w) random (c.skipLog w)).opened.Nodup :=
    List.nodup_nil
  obtain ⟨opened, hrec, hopen, hlast⟩ := fill_recorded discover hsource total
    (total + (c.sourcePaths w).length).toNat hstart
  refine ⟨opened, hopen, hrec, ?_⟩
  intro d hgrowth
  rw [hlast d hgrowth]
  exact fill_logged hsource (by simp [Logged, Draft.start, Draft.opened]) hgrowth

/-- **Sampling is exact.**  A crate that offers no candidate is reported as such.  From any other
the batch has as many candidates as were asked for, or one for each place if there are fewer; all
are candidates of the crate, at different places.  Further draws would change nothing, and every
file is read, and warned about, at most once. -/
theorem sample_exact (hsource : source.Lawful) (parser : Parser) (w : Workspace) (c : Crate)
    {least most : Int} (hleast : 1 ≤ least) (hmost : least ≤ most) (random : ρ)
    {all : List Candidate} {log : List LogLine} (hall : c.candidates parser w = .ok (all, log)) :
    let total := (source.between least most random).1
    let random' := (source.between least most random).2
    let places := (all.map Candidate.place).toFinset
    let find := c.candidatesAt parser w
    let result := sample parser source w c least most random
    (places.card = 0 → result.batch = .error (.noFiles c.sources) ∨
      result.batch = .error (.noCandidates c.sources)) ∧
    (0 < places.card → ∃ batch, result.batch = .ok batch ∧
      (batch.length : Int) = min total places.card ∧ (∀ m ∈ batch, m ∈ all) ∧
      (batch.map Candidate.place).Nodup) ∧
    (∀ more, fill find source total ((total + (c.sourcePaths w).length).toNat + more)
      (Draft.start (c.sourcePaths w) random' (c.skipLog w))
        = growth find source w c total random') ∧
    ∃ opened : List Path, opened.Nodup ∧
      (growth (recorded find) source w c total random').run.run []
        = (growth find source w c total random', opened) ∧
      result.log = c.skipLog w ++ opened.flatMap (warnings find) ++
        (match result.batch with
          | .ok batch => summary batch.length total
          | .error _ => []) := by
  intro total random' places find result
  have htotal : 1 ≤ total := Int.le_trans hleast (hsource.low_le_between least most random hmost)
  obtain ⟨log', hin⟩ := Crate.candidates_eq_ok hall
  obtain ⟨hlist, hmem⟩ := Crate.candidatesIn_mem hin
  obtain ⟨d, hgrowth⟩ : ∃ d, growth find source w c total random' = .ok d :=
    fill_ok (candidatesAt_separates parser w c) hsource hlist _ (start_sound _ _ _)
  obtain ⟨hsize, hbatch, hnodup⟩ := growth_exact hsource (by omega) hmem hgrowth
  replace hsize : (d.batch.length : Int) = min total places.card := hsize
  have hdrawn : source.between least most random = (total, random') := rfl
  have hresult : result = _ := sample_eq hmost hdrawn hgrowth
  refine ⟨?_, ?_, fun more => fill_add hsource more _ _ (start_slack (by omega) _ _ _), ?_⟩
  · intro hnone
    have hempty : d.batch = [] := List.length_eq_zero_iff.mp (by omega)
    rw [hresult, if_pos hempty]
    split
    · exact Or.inl rfl
    · exact Or.inr rfl
  · intro hsome
    have hne : d.batch ≠ [] := fun hc => by
      rw [hc, List.length_nil] at hsize
      omega
    have hpaths : c.sourcePaths w ≠ [] := by
      intro hc
      rw [growth_of_no_paths hc] at hgrowth
      exact hne (by rw [← Except.ok.inj hgrowth]; rfl)
    rw [hresult, if_neg hpaths, if_neg hne]
    exact ⟨d.batch, rfl, hsize, hbatch, hnodup⟩
  · obtain ⟨opened, hopen, hrec, hlog⟩ := growth_recorded hsource find w c total random'
    refine ⟨opened, hopen, hrec, ?_⟩
    rw [← hlog d hgrowth, hresult]
    split
    · next hpaths =>
        rw [growth_of_no_paths hpaths] at hgrowth
        rw [← Except.ok.inj hgrowth]
        simp [Draft.start]
    · split <;> simp

end

/-! ### A small crate -/

/-- The source that always takes what comes first and shuffles nothing. -/
def first : RandomSource Unit where
  between low _ s := (low, s)
  index _ s := (0, s)
  shuffle xs s := (xs, s)

theorem first_lawful : first.Lawful where
  low_le_between _ _ _ _ := Int.le_refl _
  between_le_high _ _ _ h := h
  index_lt _ _ h := h
  shuffle_perm _ _ := List.Perm.refl _

/-- The crate in the directory of the same name. -/
def smallCrate : Crate := ⟨⟨"/", ["small"]⟩⟩

/-- Its one source file holds two declarations, with a character of two bytes and both kinds of line
endings. -/
def smallFiles : Workspace where
  base := smallCrate.root
  entries := [([manifestName], .file []), ([sourceDirectory], .directory),
    ([sourceDirectory, "lib.rs"],
      .file (Text.Utf8.encode "pub fn é() {}\r\npub(crate) fn b() {}\n".toList))]

/-- The small crate has seven candidates at two places; of three that are asked for it gives two. -/
theorem sample_exact_smallCrate :
    ∃ all log, smallCrate.candidates Rust.parse smallFiles = .ok (all, log) ∧ all.length = 7 ∧
      ∃ batch, (sample Rust.parse first smallFiles smallCrate 3 5 ()).batch = .ok batch ∧
        batch.length = 2 ∧ (batch.map Candidate.place).Nodup := by
  have heval : (match smallCrate.candidates Rust.parse smallFiles with
      | .ok (all, _) => (all.length, (all.map Candidate.place).toFinset.card)
      | .error _ => (0, 0)) = (7, 2) := by decide +kernel
  cases hall : smallCrate.candidates Rust.parse smallFiles with
  | error e => simp [hall] at heval
  | ok found =>
      obtain ⟨all, log⟩ := found
      simp only [hall, Prod.mk.injEq] at heval
      obtain ⟨-, hsome, -⟩ := sample_exact first_lawful Rust.parse smallFiles smallCrate
        (by decide : (1 : Int) ≤ 3) (by decide : (3 : Int) ≤ 5) () hall
      obtain ⟨batch, hbatch, hsize, -, hdistinct⟩ := hsome (by omega)
      refine ⟨all, log, rfl, heval.1, batch, hbatch, ?_, hdistinct⟩
      rw [heval.2] at hsize
      exact Int.ofNat.inj hsize

end Sampling

end Tighten
