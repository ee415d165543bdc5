import Tighten.Proofs.Reachability
import Tighten.Proofs.Substitution

/-
Where the edits of a tree are.

An edit stands for one modifier, and all edits of a modifier have its span.  The modifiers follow
each other in the order in which the walk comes to them, so the spans do so too: each is that of
some characters, none reaches into another, and two are the same only if the modifier is.  A span
can therefore stand for the modifier wherever edits are told apart, and edits with different spans
can be made together.

All that is asked of the tree is that its ranges are nested and lie in the text.  They may begin and
end inside characters.  A modifier that does so cannot be read, and the walk ends there; those that
can be read begin and end with a character.
-/
namespace Tighten

open Syntax Text.Utf8

/-- A tree of nested ranges of the bytes of a text. -/
structure Syntax.NestedOver (text : List Char) (root : Node) : Prop where
  nested : NestedTree root
  fits : root.stop ≤ (encode text).length

theorem Syntax.TreeOver.nestedOver {text : List Char} {root : Node} (h : TreeOver text root) :
    NestedOver text root :=
  ⟨h.nested, h.placed.stop_le⟩

/-- A span with characters comes before all that begin at or after its end. -/
theorem Span.before_of_le {s t : Span} (hs : s.start.before s.stop = true)
    (hst : t.start.before s.stop = false) : s.before t = true := by
  rw [Bool.eq_false_iff, ne_eq, Position.before_iff] at hst
  rw [Position.before_iff] at hs
  rw [Span.before_iff, Position.before_iff]
  omega

/-- Whether a node is a modifier. -/
def Syntax.Node.isModifier (n : Node) : Bool :=
  n.kind == .visibility

namespace Discovery

variable {text : List Char} {root n m v u : Node} {e f : Edit} {es : List Edit}

/-! ### The modifier of an edit -/

/-- The edit narrows the modifier at an address, the first of a declaration that is visited. -/
inductive AnchoredAt (source : List UInt8) (root : Node) : List Nat → Edit → Prop
  | modifier {p : List Nat} {i : Nat} {d v : Node} {e : Edit} (hd : Reaches root p d)
      (hv : d.FirstChild Node.isModifier i v) (he : Narrows source v e) :
      AnchoredAt source root (p ++ [i]) e

theorem mem_declared_iff : n ∈ declared root ↔ ∃ p, Reaches root p n := by
  obtain ⟨found, hlist, -, hmem⟩ := enumerates_declared root
  rw [← hlist, List.mem_map]
  constructor
  · intro h
    obtain ⟨⟨p, d⟩, hx, rfl⟩ := h
    exact ⟨p, (hmem p d).mp hx⟩
  · intro h
    obtain ⟨p, hp⟩ := h
    exact ⟨(p, n), (hmem p n).mpr hp, rfl⟩

theorem modifier?_eq_some_iff :
    n.modifier? = some v ↔ ∃ i, n.FirstChild Node.isModifier i v :=
  Node.find?_eq_some_iff

/-- What an edit narrows has an address. -/
theorem exists_anchoredAt {source : List UInt8} (hn : n ∈ declared root)
    (hv : n.modifier? = some v) (he : Narrows source v e) : ∃ p, AnchoredAt source root p e := by
  obtain ⟨p, hp⟩ := mem_declared_iff.mp hn
  obtain ⟨i, hi⟩ := modifier?_eq_some_iff.mp hv
  exact ⟨p ++ [i], .modifier hp hi he⟩

theorem modifier_stop_le (h : NestedOver text root) (hn : n ∈ declared root)
    (hv : n.modifier? = some v) : v.stop ≤ (encode text).length := by
  have hwithin : Within root v := .child (within_declared root hn) (mem_of_modifier? hv)
  exact Nat.le_trans (h.nested.range_le hwithin).2 h.fits

/-- The modifiers of declarations with different addresses are apart. -/
theorem apart_of_address_ne (h : NestedTree root) {p q : List Nat} (hn : Reaches root p n)
    (hm : Reaches root q m) (hv : n.modifier? = some v) (hu : m.modifier? = some u)
    (hpq : p ≠ q) : v.stop ≤ u.start ∨ u.stop ≤ v.start := by
  obtain ⟨found, hlist, -, hmem⟩ := enumerates_declared root
  have hrow := (inRow_declared root h).1
  rw [← hlist, modifiers, List.pairwise_flatMap, List.pairwise_map] at hrow
  have hapart : found.Pairwise fun x y => ∀ v u, x.2.modifier? = some v → y.2.modifier? = some u →
      v.stop ≤ u.start ∨ u.stop ≤ v.start := by
    refine hrow.2.imp ?_
    intro x y hxy v u hv hu
    exact Or.inl (hxy v (by simp [hv]) u (by simp [hu]))
  have hsymm : Std.Symm fun x y : List Nat × Node => ∀ v u, x.2.modifier? = some v →
      y.2.modifier? = some u → v.stop ≤ u.start ∨ u.stop ≤ v.start :=
    ⟨fun x y hxy v u hv hu => (hxy u v hu hv).symm⟩
  have hne : (p, n) ≠ (q, m) := by
    intro heq
    exact hpq (congrArg Prod.fst heq)
  exact hapart.forall ((hmem p n).mpr hn) ((hmem q m).mpr hm) hne v u hv hu

/-! ### From modifiers to spans -/

/-- Modifiers in order have spans in order. -/
theorem Narrows.span_le (he : Narrows (encode text) v e) (hf : Narrows (encode text) u f)
    (hv : v.stop ≤ (encode text).length) (hu : u.stop ≤ (encode text).length)
    (hvu : v.stop ≤ u.start) : f.span.start.before e.span.stop = false := by
  obtain ⟨a, b, hab, hb, -, hstop, -, hto⟩ := he.exists_stretch hv
  obtain ⟨c, d, hcd, hd, hstart, -, hfrom, -⟩ := hf.exists_stretch hu
  have hbc : b ≤ c := by
    refine index_le_of_bytesBefore hb ?_
    rw [← hstop, ← hstart]
    exact hvu
  rw [hto, hfrom]
  exact Position.not_after_before text hbc

theorem Narrows.span_filled (he : Narrows (encode text) v e)
    (hv : v.stop ≤ (encode text).length) : e.span.start.before e.span.stop = true := by
  obtain ⟨a, b, hab, hb, -, -, hfrom, hto⟩ := he.exists_stretch hv
  rw [hfrom, hto]
  exact Position.after_take_before hab hb

/-- Edits of one modifier have one span. -/
theorem Narrows.span_eq {source : List UInt8} (he : Narrows source v e) (hf : Narrows source v f) :
    e.span = f.span :=
  Except.ok.inj (he.place.symm.trans hf.place)

/-- The spans of two edits are the same exactly where the modifiers are. -/
theorem span_eq_iff (h : NestedOver text root) {p q : List Nat}
    (he : AnchoredAt (encode text) root p e) (hf : AnchoredAt (encode text) root q f) :
    e.span = f.span ↔ p = q := by
  obtain @⟨p, i, n, v, _, hn, hv, he⟩ := he
  obtain @⟨q, j, m, u, _, hm, hu, hf⟩ := hf
  have hnv := modifier?_eq_some_iff.mpr ⟨i, hv⟩
  have hmu := modifier?_eq_some_iff.mpr ⟨j, hu⟩
  have hvle := modifier_stop_le h (mem_declared_iff.mpr ⟨p, hn⟩) hnv
  have hule := modifier_stop_le h (mem_declared_iff.mpr ⟨q, hm⟩) hmu
  -- declarations at one address are the same, and so are their first modifiers
  have hsame : p = q → n = m := by
    intro hpq
    have hat := hn.at?
    rw [hpq, hm.at?] at hat
    exact (Option.some.inj hat).symm
  constructor
  · intro hspan
    have hpq : p = q := by
      by_contra hne
      have hfilled := he.span_filled hvle
      rcases apart_of_address_ne h.nested hn hm hnv hmu hne with hle | hle
      · have hstart := he.span_le hf hvle hule hle
        rw [← hspan, hfilled] at hstart
        cases hstart
      · have hstart := hf.span_le he hule hvle hle
        rw [← hspan, hfilled] at hstart
        cases hstart
    obtain rfl := hsame hpq
    rw [hpq, hv.index_unique hu]
  · intro hpq
    obtain ⟨hpq, hij⟩ := List.append_inj' hpq rfl
    obtain rfl := hsame hpq
    rw [hnv] at hmu
    obtain rfl := Option.some.inj hmu
    exact he.span_eq hf

/-! ### The list of edits -/

/-- What holds of the edits of one step and of two steps one after the other holds of all edits. -/
theorem inTurn_pairwise {step : Node → Except WalkError (List Edit)} {R : Edit → Edit → Prop}
    {ns : List Node} (h : inTurn step ns = .ok es)
    (hown : ∀ n ∈ ns, ∀ own, step n = .ok own → own.Pairwise R)
    (hcross : ns.Pairwise fun n m => ∀ own other, step n = .ok own → step m = .ok other →
      ∀ e ∈ own, ∀ f ∈ other, R e f) : es.Pairwise R := by
  induction ns generalizing es with
  | nil =>
      simp only [inTurn, Except.ok.injEq] at h
      rw [← h]
      exact List.Pairwise.nil
  | cons n rest ih =>
      simp only [inTurn, bind_eq_ok, pure_eq_ok] at h
      obtain ⟨own, hn, others, hrest, rfl⟩ := h
      obtain ⟨hfirst, hcross⟩ := List.pairwise_cons.mp hcross
      refine List.pairwise_append.mpr ⟨hown n List.mem_cons_self own hn, ?_, ?_⟩
      · exact ih hrest (fun m hm => hown m (List.mem_cons_of_mem n hm)) hcross
      · intro e he f hf
        obtain ⟨m, hm, other, hother, hf⟩ := inTurn_mem hrest hf
        exact hfirst m hm own other hn hother e he f hf

/-- Edits that follow each other have one span, or spans that follow each other. -/
theorem walk_spans_pairwise (h : NestedOver text root) (hes : walk (encode text) root = .ok es) :
    es.Pairwise fun e f => e.span = f.span ∨ f.span.start.before e.span.stop = false := by
  rw [walk_eq] at hes
  have hrow := (inRow_declared root h.nested).1
  rw [modifiers, List.pairwise_flatMap] at hrow
  refine inTurn_pairwise hes ?_ (hrow.2.imp_of_mem ?_)
  · intro n hn own hown
    refine List.pairwise_of_forall_mem_list ?_
    intro e he f hf
    obtain ⟨v, hv, he⟩ := narrow_mem hown he
    obtain ⟨u, hu, hf⟩ := narrow_mem hown hf
    rw [hv] at hu
    obtain rfl := Option.some.inj hu
    exact Or.inl (he.span_eq hf)
  · intro n m hn hm hnm own other hown hother e he f hf
    obtain ⟨v, hv, he⟩ := narrow_mem hown he
    obtain ⟨u, hu, hf⟩ := narrow_mem hother hf
    exact Or.inr (he.span_le hf (modifier_stop_le h hn hv) (modifier_stop_le h hm hu)
      (hnm v (by simp [hv]) u (by simp [hu])))

/-! ### Where the walk ends early -/

theorem inTurn_eq_error {step : Node → Except WalkError (List Edit)} {ns : List Node}
    {err : WalkError} (h : inTurn step ns = .error err) : ∃ n ∈ ns, step n = .error err := by
  induction ns with
  | nil => cases h
  | cons n rest ih =>
      unfold inTurn at h
      cases hn : step n with
      | error e =>
          rw [hn] at h
          obtain rfl := Except.error.inj h
          exact ⟨n, List.mem_cons_self, hn⟩
      | ok own =>
          rw [hn] at h
          cases hrest : inTurn step rest with
          | error e =>
              rw [hrest] at h
              obtain rfl := Except.error.inj h
              obtain ⟨m, hm, hstep⟩ := ih hrest
              exact ⟨m, List.mem_cons_of_mem n hm, hstep⟩
          | ok others =>
              rw [hrest] at h
              cases h

/-- A modifier of the text that can be read has its edits. -/
theorem exists_narrow (hv : v.stop ≤ (encode text).length) {token : List Char}
    (htoken : decode (v.bytes (encode text)) = .ok token) :
    ∃ es, narrow (encode text) (some v) = .ok es := by
  by_cases hways : (Visibility.ofModifier token).narrowings = []
  · refine ⟨[], narrow_eq_ok_iff.mpr ⟨token, htoken, hways.symm, ?_⟩⟩
    intro e he
    exact absurd he List.not_mem_nil
  · have hne : token ≠ [] := by
      intro hnil
      rw [hnil] at hways
      exact hways (by decide)
    obtain ⟨a, b, hab, hb, hstart, hstop⟩ := exists_stretch_of_decode hv htoken hne
    exact ⟨_, narrow_eq ⟨Nat.le_of_lt hab, hb, hstart, hstop⟩⟩

/-- The walk ends early at a modifier that cannot be read, and nowhere else. -/
theorem walk_eq_error (h : NestedOver text root) {err : WalkError}
    (herr : walk (encode text) root = .error err) :
    ∃ p d v bad, Reaches root p d ∧ d.modifier? = some v ∧
      decode (v.bytes (encode text)) = .error bad ∧ err = .undecodable bad := by
  rw [walk_eq] at herr
  obtain ⟨d, hd, herr⟩ := inTurn_eq_error herr
  obtain ⟨p, hp⟩ := mem_declared_iff.mp hd
  unfold declaration at herr
  cases hv : d.modifier? with
  | none =>
      rw [hv] at herr
      cases herr
  | some v =>
      rw [hv] at herr
      cases htoken : decode (v.bytes (encode text)) with
      | error bad =>
          simp only [narrow, htoken] at herr
          exact ⟨p, d, v, bad, hp, hv, htoken, (Except.error.inj herr).symm⟩
      | ok token =>
          obtain ⟨es, hes⟩ := exists_narrow (modifier_stop_le h hd hv) htoken
          rw [hes] at herr
          cases herr

/-! ### What is drawn from a crate -/

theorem consistent_of_sampled {parser : Parser} {w : Workspace} {c : Crate}
    {batch : List Candidate}
    (hparser : ∀ code root, parser code = .ok root → NestedOver code.toList root)
    (h : Pipeline.Sampled parser w c batch) : Batch.Consistent batch where
  sameText := by
    intro m hm k hk hpath
    rw [h.file_eq hm hk hpath]
  located := by
    intro m hm
    obtain ⟨v, root, hroot, n, hn, hv, hnarrows⟩ := h.anchored m hm
    obtain ⟨a, b, hab, hb, -, -, hspan⟩ :=
      hnarrows.exists_stretch (modifier_stop_le (hparser _ root hroot) hn hv)
    exact ⟨(a, b), (Candidate.Covers.mk hab hb hspan.1 hspan.2).marks⟩
  compatible := by
    have hplaces : batch.Pairwise fun m k => m.place ≠ k.place := List.pairwise_map.mp h.distinct
    refine hplaces.imp_of_mem ?_
    intro m k hm hk hplace hpath
    have hfile := h.file_eq hm hk hpath
    have hspan : m.span ≠ k.span := fun hspan => hplace (Prod.ext hfile hspan)
    refine ⟨hspan, ?_⟩
    obtain ⟨v, root, hroot, n, hn, hv, hmv⟩ := h.anchored m hm
    obtain ⟨u, root', hroot', n', hn', hu, hku⟩ := h.anchored k hk
    rw [← hfile, hroot] at hroot'
    obtain rfl := Except.ok.inj hroot'
    rw [← hfile] at hku
    have hover := hparser _ root hroot
    have hvle := modifier_stop_le hover hn hv
    have hule := modifier_stop_le hover hn' hu
    have hne : v ≠ u := by
      intro hvu
      rw [← hvu] at hku
      exact hspan (hmv.span_eq hku)
    have hrow := (inRow_declared root hover.nested).1
    rcases apart_of_pairwise hrow (mem_modifiers hn hv) (mem_modifiers hn' hu) hne with hle | hle
    · exact Or.inl (hmv.span_le hku hvle hule hle)
    · exact Or.inr (hku.span_le hmv hule hvle hle)

/-- What is said of the edits of a tree, in the order in which they are found. -/
structure InPlace (source : List UInt8) (root : Node) (es : List Edit) : Prop where
  /-- No span is empty. -/
  filled : ∀ e ∈ es, e.span.isEmpty = false
  /-- Spans do not go backwards. -/
  sorted : es.Pairwise fun e f => f.span.before e.span = false
  /-- Every edit narrows a modifier. -/
  anchored : ∀ e ∈ es, ∃ p, AnchoredAt source root p e
  /-- The spans are the same exactly where the modifiers are. -/
  sameSpan : ∀ e ∈ es, ∀ f ∈ es, ∀ p q, AnchoredAt source root p e → AnchoredAt source root q f →
    (e.span = f.span ↔ p = q)
  /-- A span that is not the same begins at or after the end of the earlier one. -/
  apart : es.Pairwise fun e f => e.span ≠ f.span → f.span.start.before e.span.stop = false

theorem inPlace_of_walk (h : NestedOver text root) (hes : walk (encode text) root = .ok es) :
    InPlace (encode text) root es := by
  have hfilled : ∀ e ∈ es, e.span.start.before e.span.stop = true := by
    intro e he
    obtain ⟨n, hn, v, hv, hnarrows⟩ := walk_mem hes he
    exact hnarrows.span_filled (modifier_stop_le h hn hv)
  have hpairs := walk_spans_pairwise h hes
  refine ⟨?_, hpairs.imp_of_mem ?_, ?_, ?_, hpairs.imp ?_⟩
  · intro e he
    have hbefore := hfilled e he
    rw [Position.before_iff] at hbefore
    rw [Span.isEmpty, Bool.eq_false_iff, ne_eq, Position.beq_iff]
    omega
  · intro e f he hf hef
    rcases hef with hsame | hapart
    · rw [hsame]
      simp [Span.before, Position.before]
    · have hbefore := Span.before_of_le (hfilled e he) hapart
      have hasymm := Span.before_asymm e.span f.span
      simpa [hbefore] using hasymm
  · intro e he
    obtain ⟨n, hn, v, hv, hnarrows⟩ := walk_mem hes he
    exact exists_anchoredAt hn hv hnarrows
  · intro e _ f _ p q hp hq
    exact span_eq_iff h hp hq
  · intro e f hef hne
    exact hef.resolve_left hne

/-- **Spans stand for modifiers.**  In a tree of nested ranges of a text, the edits that the walk
finds come in the order of their spans.  No span is empty, two are the same exactly where the edits
are of the same modifier, and any other begins at or after the end of the earlier one.  The walk
finds its edits unless the bytes of some modifier are no text.  So what is drawn from a crate, at
most one edit for each span, can be made together. -/
theorem walk_inPlace :
    (∀ text root, NestedOver text root →
      (∃ es, walk (encode text) root = .ok es ∧ InPlace (encode text) root es) ∨
      ∃ p d v bad, Reaches root p d ∧ d.modifier? = some v ∧
        decode (v.bytes (encode text)) = .error bad ∧
        walk (encode text) root = .error (.undecodable bad)) ∧
    ∀ parser : Parser, (∀ code root, parser code = .ok root → NestedOver code.toList root) →
      ∀ (ρ : Type) (source : RandomSource ρ), source.Lawful →
      ∀ (w : Workspace) (c : Crate) (least most : Int) (random : ρ) (batch : List Candidate),
        (Sampling.sample parser source w c least most random).batch = .ok batch →
        Batch.Consistent batch := by
  refine ⟨?_, ?_⟩
  · intro text root h
    cases hes : walk (encode text) root with
    | ok es => exact Or.inl ⟨es, rfl, inPlace_of_walk h hes⟩
    | error err =>
        obtain ⟨p, d, v, bad, hp, hv, hbad, rfl⟩ := walk_eq_error h hes
        exact Or.inr ⟨p, d, v, bad, hp, hv, hbad, rfl⟩
  · intro parser hparser ρ source hsource w c least most random batch h
    exact consistent_of_sampled hparser (Pipeline.sampled_of_sample hsource h)

/-- The tree of the split file, except that its root begins inside the character of two bytes. -/
def looseTree : Node :=
  .mk (.other "source_file") 4 40 .none false false splitTree.children

theorem looseTree_nestedOver : NestedOver splitFile.code.toList looseTree := by
  have hsplit : TreeOver splitFile.code.toList splitTree :=
    treeOver_of_check splitTree (by decide +kernel)
  refine ⟨?_, by decide⟩
  intro n hn
  rcases hn.cases_child with rfl | ⟨c, hc, hn⟩
  · exact ⟨by decide, by decide, fun hkind => absurd hkind (by decide)⟩
  · exact hsplit.nested.child hc n hn

/-- The seven edits of the loose tree are in place, and what is drawn from the small crate can be
made together. -/
theorem walk_inPlace_looseTree :
    NestedOver splitFile.code.toList looseTree ∧
    (∃ es, walk (encode splitFile.code.toList) looseTree = .ok es ∧ es.length = 7 ∧
      InPlace (encode splitFile.code.toList) looseTree es) ∧
    ∃ batch, (Sampling.sample Pipeline.carefulParser Sampling.first Sampling.smallFiles
        Sampling.smallCrate 3 5 ()).batch = .ok batch ∧ batch.length = 2 ∧
      Batch.Consistent batch := by
  obtain ⟨hwalk, hsample⟩ := walk_inPlace
  have hseven : (walk (encode splitFile.code.toList) looseTree).toOption.map List.length =
      some 7 := by decide +kernel
  have htwo : (Sampling.sample Pipeline.carefulParser Sampling.first Sampling.smallFiles
      Sampling.smallCrate 3 5 ()).batch.toOption.map List.length = some 2 := by decide +kernel
  refine ⟨looseTree_nestedOver, ?_, ?_⟩
  · rcases hwalk _ looseTree looseTree_nestedOver with
      ⟨es, hes, hplace⟩ | ⟨p, d, v, bad, -, -, -, herr⟩
    · exact ⟨es, hes, by simpa [hes, Except.toOption] using hseven, hplace⟩
    · simp [herr, Except.toOption] at hseven
  · cases hbatch : (Sampling.sample Pipeline.carefulParser Sampling.first Sampling.smallFiles
        Sampling.smallCrate 3 5 ()).batch with
    | error e => simp [hbatch, Except.toOption] at htwo
    | ok batch =>
        refine ⟨batch, rfl, by simpa [hbatch, Except.toOption] using htwo, ?_⟩
        exact hsample _ (fun code root hroot =>
          (Pipeline.carefulParser_laysOut code root hroot).nestedOver) _ _ Sampling.first_lawful
          _ _ _ _ _ _ hbatch

end Discovery

end Tighten
