import Tighten.Proofs.Sampling

/-
Every batch can be drawn.

A batch that sampling may give is a list of candidates of the crate at different places, as long as
was asked for or one for each place there is.  Each such list is given for some choices, whatever
the order of its candidates.  They are the obvious ones: draw the file of the next candidate, which
still has it, and shuffle the candidate to the end of those left there.  The candidate is still left
because its place was not used, and for the same reason the file is not retired.

What comes after the last candidate of the list cannot add to the batch, since batches have no other
size.
-/
namespace Tighten

namespace Sampling

/-! ### Scripted choices -/

/-- Choices that are made in advance: the size of a batch, and a number for each choice after it. -/
structure Script where
  size : Int
  choices : List Nat

/-- The list with the element at an index moved to the end. -/
def toLast {α : Type} (i : Nat) (xs : List α) : List α :=
  xs.eraseIdx i ++ xs[i]?.toList

theorem toLast_of_lt {α : Type} {i : Nat} {xs : List α} (h : i < xs.length) :
    toLast i xs = xs.eraseIdx i ++ [xs[i]] := by
  rw [toLast, List.getElem?_eq_getElem h, Option.toList_some]

theorem toLast_perm {α : Type} (i : Nat) (xs : List α) : (toLast i xs).Perm xs := by
  by_cases h : i < xs.length
  · rw [toLast_of_lt h]
    exact (List.perm_append_singleton _ _).trans (List.getElem_cons_eraseIdx_perm h)
  · have hlen : xs.length ≤ i := Nat.le_of_not_lt h
    rw [toLast, List.eraseIdx_of_length_le hlen, List.getElem?_eq_none hlen, Option.toList_none,
      List.append_nil]

/-- The source that makes the choices of a script, or the nearest that are allowed. -/
def scripted : RandomSource Script where
  between low high s := (max low (min s.size high), s)
  index length s := (min (s.choices.headD 0) (length - 1), { s with choices := s.choices.tail })
  shuffle xs s := (toLast (s.choices.headD 0) xs, { s with choices := s.choices.tail })

theorem scripted_lawful : scripted.Lawful where
  low_le_between low _ _ _ := Int.le_max_left low _
  between_le_high _ high _ h := Int.max_le.mpr ⟨h, Int.min_le_right _ high⟩
  index_lt length s h := by
    have := Nat.min_le_right (s.choices.headD 0) (length - 1)
    show min (s.choices.headD 0) (length - 1) < length
    omega
  shuffle_perm xs s := toLast_perm (s.choices.headD 0) xs

/-! ### Drawing the next candidate -/

section

variable {discover : Finder (Except WalkError)} {paths : List Path} {total size : Int}
  {p : Path} {m : Candidate}

/-- A file with a candidate at a place that is not used has not been retired. -/
theorem Sound.mem_live {ρ : Type} {d : Draft ρ} (hd : Sound discover paths d) (hp : p ∈ paths)
    (hm : Offers discover p m) (hfresh : m.place ∉ d.batch.map Candidate.place) : p ∈ d.live := by
  by_contra hgone
  exact absurd ((hd.left (hd.dry p hp hgone) m).mpr ⟨hm, hfresh⟩) List.not_mem_nil

/-- Reading a file has nothing to do with chance. -/
theorem leftIn_random {d d' : Draft Script} {left : List Candidate} (script : Script)
    (h : leftIn discover p d = .ok (left, d')) :
    leftIn discover p { d with random := script } = .ok (left, { d' with random := script }) := by
  rcases leftIn_cases h with ⟨hlook, rfl⟩ | ⟨hlook, log, hfind, rfl⟩
  · simp [leftIn, hlook]
  · simp [leftIn, hlook, hfind]

/-- Of a candidate's file the candidate is taken if the script says so. -/
theorem take_scripted {d : Draft Script} {left : List Candidate} {j : Nat} (hj : left[j]? = some m)
    (choices : List Nat) :
    take scripted p left { d with random := ⟨size, j :: choices⟩ } = { d with
      batch := d.batch ++ [m]
      remaining := setRemaining p ((left.eraseIdx j).filter fun k => k.span != m.span) d.remaining
      random := ⟨size, choices⟩ } := by
  obtain ⟨hlt, rfl⟩ := List.getElem?_eq_some_iff.mp hj
  have hne : left ≠ [] := List.ne_nil_of_length_pos (by omega)
  have hshuffle : scripted.shuffle left (⟨size, j :: choices⟩ : Script) =
      (left.eraseIdx j ++ [left[j]], ⟨size, choices⟩) := by
    rw [← toLast_of_lt hlt]
    rfl
  simp [take, hne, hshuffle]

theorem leftIn_ok {ρ : Type} {r : List Candidate × List LogLine} (h : discover p = .ok r)
    (d : Draft ρ) : ∃ left d', leftIn discover p d = .ok (left, d') := by
  unfold leftIn
  cases d.remaining.lookup p with
  | some left => exact ⟨left, d, rfl⟩
  | none => exact ⟨_, _, by rw [h]; rfl⟩

/-- Some choices of a draw add a candidate whose place is not used to the batch. -/
theorem turn_scripted (hsep : Separates discover) (hlist : ∀ p ∈ paths, ∃ r, discover p = .ok r)
    {d : Draft Script} (hd : Sound discover paths d) (hp : p ∈ paths) (hm : Offers discover p m)
    (hfresh : m.place ∉ d.batch.map Candidate.place) (size : Int) :
    ∃ (i j : Nat) (d' : Draft Script), d'.batch = d.batch ++ [m] ∧ Sound discover paths d' ∧
      ∀ choices, turn discover scripted { d with random := ⟨size, i :: j :: choices⟩ } =
        .ok { d' with random := ⟨size, choices⟩ } := by
  have hlive : p ∈ d.live := hd.mem_live hp hm hfresh
  obtain ⟨i, hi⟩ := List.mem_iff_getElem?.mp hlive
  obtain ⟨r, hr⟩ := hlist p hp
  obtain ⟨left, d₁, hleft⟩ := leftIn_ok hr d
  obtain ⟨hd₁, hlook, hbatch, -⟩ := leftIn_sound hsep hd hleft
  have hmem : m ∈ left := (hd₁.left hlook m).mpr ⟨hm, by rwa [hbatch]⟩
  obtain ⟨j, hj⟩ := List.mem_iff_getElem?.mp hmem
  have hturn : ∀ choices, turn discover scripted { d with random := ⟨size, i :: j :: choices⟩ } =
      .ok { d₁ with
        batch := d₁.batch ++ [m]
        remaining := setRemaining p ((left.eraseIdx j).filter fun k => k.span != m.span)
          d₁.remaining
        random := ⟨size, choices⟩ } := by
    intro choices
    have hindex : scripted.index d.live.length (⟨size, i :: j :: choices⟩ : Script) =
        (i, ⟨size, j :: choices⟩) := by
      have hlt := (List.getElem?_eq_some_iff.mp hi).1
      have hmin : min i (d.live.length - 1) = i := by omega
      simp [scripted, hmin]
    simp only [turn, hindex, hi, leftIn_random ⟨size, j :: choices⟩ hleft]
    exact congrArg Except.ok (take_scripted hj choices)
  refine ⟨i, j, _, ?_, turn_sound hsep scripted_lawful ?_ ?_ (hturn []), hturn⟩
  · rw [hbatch]
  · exact List.ne_nil_of_mem hlive
  · exact ⟨hd.live, hd.left, hd.offered, hd.distinct, hd.dry⟩

/-- Some choices draw one candidate of a list after the other. -/
theorem fill_scripted (hsep : Separates discover) (hlist : ∀ p ∈ paths, ∃ r, discover p = .ok r)
    (size : Int) (target : List Candidate) :
    ∀ d : Draft Script, Sound discover paths d →
      (∀ m ∈ target, ∃ p ∈ paths, Offers discover p m) →
      ((d.batch ++ target).map Candidate.place).Nodup →
      ((d.batch ++ target).length : Int) ≤ total →
      ∃ (choices : List Nat) (d' : Draft Script), d'.batch = d.batch ++ target ∧
        Sound discover paths d' ∧ ∀ draws,
          fill discover scripted total (target.length + draws)
              { d with random := ⟨size, choices⟩ }
            = fill discover scripted total draws { d' with random := ⟨size, []⟩ } := by
  induction target with
  | nil =>
      intro d hd _ _ _
      refine ⟨[], d, (List.append_nil _).symm, hd, fun draws => ?_⟩
      rw [List.length_nil, Nat.zero_add]
  | cons m rest ih =>
      intro d hd hoffers hnodup hlength
      obtain ⟨p, hp, hm⟩ := hoffers m List.mem_cons_self
      have hfresh : m.place ∉ d.batch.map Candidate.place := by
        intro hused
        rw [List.map_append] at hnodup
        exact (List.nodup_append.mp hnodup).2.2 _ hused _ List.mem_cons_self rfl
      obtain ⟨i, j, d₁, hbatch, hd₁, hturn⟩ := turn_scripted hsep hlist hd hp hm hfresh size
      have happend : d₁.batch ++ rest = d.batch ++ m :: rest := by
        rw [hbatch, List.append_assoc, List.singleton_append]
      obtain ⟨choices, d', hbatch', hd', hfill⟩ := ih d₁ hd₁
        (fun k hk => hoffers k (List.mem_cons_of_mem m hk)) (by rwa [happend]) (by rwa [happend])
      refine ⟨i :: j :: choices, d', by rw [hbatch', happend], hd', fun draws => ?_⟩
      have hdue : isDone total { d with random := (⟨size, i :: j :: choices⟩ : Script) } =
          false := by
        refine not_isDone_iff.mpr ⟨?_, List.ne_nil_of_mem (hd.mem_live hp hm hfresh)⟩
        rw [List.length_append, List.length_cons] at hlength
        show (d.batch.length : Int) < total
        omega
      rw [List.length_cons, Nat.add_right_comm, fill_of_due hdue, hturn choices]
      exact hfill draws

/-- A draw takes nothing back. -/
theorem turn_extends {ρ : Type} {source : RandomSource ρ} (hsource : source.Lawful) {d d' : Draft ρ}
    (hlive : d.live ≠ []) (h : turn discover source d = .ok d') : d.batch <+: d'.batch := by
  obtain ⟨p, -, random, left, d₁, hleft, rfl⟩ := turn_cases hsource hlive h
  have hbatch : d₁.batch = d.batch := by
    rcases leftIn_cases hleft with ⟨-, rfl⟩ | ⟨-, log, -, rfl⟩ <;> rfl
  rcases take_cases hsource p left d₁ with ⟨-, heq⟩ | ⟨others, chosen, random', -, heq⟩
  · rw [heq, hbatch]
  · rw [heq, hbatch]
    exact List.prefix_append _ _

theorem fill_extends {ρ : Type} {source : RandomSource ρ} (hsource : source.Lawful) {draws : Nat}
    {d d' : Draft ρ} (h : fill discover source total draws d = .ok d') : d.batch <+: d'.batch :=
  fill_keeps (P := fun d' => d.batch <+: d'.batch)
    (fun hdue hd hturn => hd.trans (turn_extends hsource (not_isDone_iff.mp hdue).2 hturn))
    draws (List.prefix_refl _) h

end

/-! ### Sampling a crate -/

section

variable {parser : Parser} {w : Workspace} {c : Crate} {all target : List Candidate}

/-- Some choices make a batch of any candidates at different places, if it has the right size. -/
theorem growth_scripted {total : Int}
    (hlist : ∀ p ∈ c.sourcePaths w, ∃ r, c.candidatesAt parser w p = .ok r)
    (hall : ∀ m, m ∈ all ↔ ∃ p ∈ c.sourcePaths w, Offers (c.candidatesAt parser w) p m)
    (hmem : ∀ m ∈ target, m ∈ all) (hdistinct : (target.map Candidate.place).Nodup)
    (hsize : (target.length : Int) = min total (all.map Candidate.place).toFinset.card) :
    ∃ choices d, growth (c.candidatesAt parser w) scripted w c total ⟨total, choices⟩ = .ok d ∧
      d.batch = target := by
  have hsep := candidatesAt_separates parser w c
  have hfits : (([] ++ target).length : Int) ≤ total := by
    rw [List.nil_append]
    omega
  obtain ⟨choices, d', hbatch, hd', hfill⟩ := fill_scripted hsep hlist total target
    (Draft.start (c.sourcePaths w) ⟨total, []⟩ (c.skipLog w)) (start_sound _ _ _)
    (fun m hm => (hall m).mp (hmem m hm)) hdistinct hfits
  replace hbatch : d'.batch = target := hbatch
  -- the draws for the list, and those that are left after it
  obtain ⟨more, hmore⟩ : ∃ more, (total + (c.sourcePaths w).length).toNat = target.length + more :=
    ⟨(total + (c.sourcePaths w).length).toNat - target.length, by omega⟩
  have hgrowth : growth (c.candidatesAt parser w) scripted w c total ⟨total, choices⟩ =
      fill (c.candidatesAt parser w) scripted total more { d' with random := ⟨total, []⟩ } := by
    rw [growth, hmore]
    exact hfill more
  obtain ⟨d, hd⟩ := fill_ok (d := { d' with random := ⟨total, []⟩ }) hsep scripted_lawful hlist
    more ⟨hd'.live, hd'.left, hd'.offered, hd'.distinct, hd'.dry⟩
  have hextends := fill_extends scripted_lawful hd
  simp only [hbatch] at hextends
  rw [← hgrowth] at hd
  obtain ⟨hlength, -, -⟩ := growth_exact scripted_lawful (by omega) hall hd
  exact ⟨choices, d, hd, (hextends.eq_of_length (by omega)).symm⟩

/-- **Sampling starves nothing.**  Whatever size is drawn, every list of that many candidates at
different places, or of one for each place if there are fewer, is the batch for some choices. -/
theorem sample_attains (parser : Parser) (w : Workspace) (c : Crate) {all : List Candidate}
    {log : List LogLine} (hall : c.candidates parser w = .ok (all, log))
    (hsome : 0 < (all.map Candidate.place).toFinset.card) {least most total : Int}
    (hleast : 1 ≤ least) (hlow : least ≤ total) (hhigh : total ≤ most) {target : List Candidate}
    (hmem : ∀ m ∈ target, m ∈ all) (hdistinct : (target.map Candidate.place).Nodup)
    (hsize : (target.length : Int) = min total (all.map Candidate.place).toFinset.card) :
    ∃ (ρ : Type) (source : RandomSource ρ) (random : ρ), source.Lawful ∧
      (source.between least most random).1 = total ∧
      (sample parser source w c least most random).batch = .ok target := by
  obtain ⟨log', hin⟩ := Crate.candidates_eq_ok hall
  obtain ⟨hlist, hoffers⟩ := Crate.candidatesIn_mem hin
  obtain ⟨choices, d, hgrowth, rfl⟩ := growth_scripted hlist hoffers hmem hdistinct hsize
  have hdrawn : scripted.between least most (⟨total, choices⟩ : Script) =
      (total, ⟨total, choices⟩) := by
    have htotal : max least (min total most) = total := by omega
    simp [scripted, htotal]
  have hne : d.batch ≠ [] := by
    intro hc
    rw [hc, List.length_nil] at hsize
    omega
  have hpaths : c.sourcePaths w ≠ [] := by
    intro hc
    rw [growth_of_no_paths hc] at hgrowth
    exact hne (by rw [← Except.ok.inj hgrowth]; rfl)
  refine ⟨Script, scripted, ⟨total, choices⟩, scripted_lawful, by rw [hdrawn], ?_⟩
  rw [sample_eq (Int.le_trans hlow hhigh) hdrawn hgrowth, if_neg hpaths, if_neg hne]

/-- The small crate can give a candidate of its second declaration and then one of its first. -/
theorem sample_attains_smallCrate :
    ∃ all log first second, smallCrate.candidates Rust.parse smallFiles = .ok (all, log) ∧
      all[0]? = some first ∧ all[6]? = some second ∧
      ∃ (ρ : Type) (source : RandomSource ρ) (random : ρ), source.Lawful ∧
        (source.between 1 9 random).1 = 5 ∧
        (sample Rust.parse source smallFiles smallCrate 1 9 random).batch =
          .ok [second, first] := by
  have heval : ((smallCrate.candidates Rust.parse smallFiles).toOption.map fun found =>
      ((found.1[0]?.toList ++ found.1[6]?.toList).length,
        (found.1.map Candidate.place).toFinset.card,
        decide (found.1[6]?.map Candidate.place = found.1[0]?.map Candidate.place))) =
      some (2, 2, false) := by decide +kernel
  cases hall : smallCrate.candidates Rust.parse smallFiles with
  | error e =>
      rw [hall] at heval
      cases heval
  | ok found =>
      obtain ⟨all, log⟩ := found
      simp only [hall, Except.toOption, Option.map_some, Option.some.injEq, Prod.mk.injEq] at heval
      obtain ⟨hboth, hcard, happart⟩ := heval
      cases hfirst : all[0]? with
      | none => cases hsecond : all[6]? <;> simp [hfirst, hsecond] at hboth
      | some first =>
          cases hsecond : all[6]? with
          | none => simp [hfirst, hsecond] at hboth
          | some second =>
              refine ⟨all, log, first, second, rfl, hfirst, hsecond, ?_⟩
              refine sample_attains Rust.parse smallFiles smallCrate hall (by omega) (by decide)
                (by decide) (by decide) ?_ ?_ ?_
              · simp only [List.forall_mem_cons, List.not_mem_nil, false_imp_iff, implies_true,
                  and_true]
                exact ⟨List.mem_of_getElem? hsecond, List.mem_of_getElem? hfirst⟩
              · simpa [hfirst, hsecond] using happart
              · rw [hcard]
                rfl

end

end Sampling

end Tighten
