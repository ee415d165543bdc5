import Tighten.Proofs.Pipeline
import Tighten.Proofs.Rewriting

/-
What is left to narrow after an edit.

An edit replaces the text of one modifier.  The tree of the new text is the old tree with that
modifier replaced and everything after it moved; that a parser finds this tree is not proved here,
but for any such tree it is shown what the walk finds in it.  For every other modifier it finds the
edits that it found before, at a span that covers the same characters.  For the modifier itself it
finds nothing, unless `pub` has become `pub(crate)`, which can be narrowed further.  So there is less
to narrow after each edit.

The modifiers follow each other, so each of the others lies before the edit or after it.  Before it
no character has moved.  After it all have moved by the same number of characters, and of bytes; the
lines and columns are read off the new text.
-/
namespace Tighten

open Syntax Text.Utf8

/-! ### Characters between two places -/

/-- The characters of a text from one index up to another. -/
def stretch (text : List Char) (a b : Nat) : List Char :=
  (text.drop a).take (b - a)

theorem take_eq_stretch (text : List Char) {a b : Nat} (h : a ≤ b) :
    text.take b = text.take a ++ stretch text a b := by
  rw [stretch, ← List.take_add, Nat.add_sub_cancel' h]

/-- Positions do not decrease along a text. -/
theorem Position.not_after_before (text : List Char) {a b : Nat} (h : a ≤ b) :
    (Position.after (text.take b)).before (Position.after (text.take a)) = false := by
  rw [take_eq_stretch text h]
  cases hmore : stretch text a b with
  | nil => simp [before]
  | cons c more =>
      have hbefore := Position.after_before (text.take a) (List.cons_ne_nil c more)
      rw [Bool.eq_false_iff]
      intro hafter
      rw [before_iff] at hbefore hafter
      omega

/-- The span of the characters of a text from one index up to another. -/
def Span.between (text : List Char) (a b : Nat) (h : a ≤ b) : Span :=
  ⟨Position.after (text.take a), Position.after (text.take b), Position.not_after_before text h⟩

/-- The characters that a span covers. -/
def Span.covered (text : List Char) (s : Span) : Except RegionError (List Char) := do
  let begin ← Region.offset (Text.lines text) s.start
  let finish ← Region.offset (Text.lines text) s.stop
  return stretch text begin finish

theorem Span.covered_between {text : List Char} {a b : Nat} (h : a ≤ b) (hb : b ≤ text.length) :
    (Span.between text a b h).covered text = .ok (stretch text a b) := by
  have hoffset : ∀ k, k ≤ text.length →
      Region.offset (Text.lines text) (Position.after (text.take k)) = .ok k := by
    intro k hk
    have hafter := Region.offset_after (text.take k) (text.drop k)
    rwa [List.take_append_drop, List.length_take, Nat.min_eq_left hk] at hafter
  rw [covered, between, hoffset a (Nat.le_trans h hb), hoffset b hb]
  rfl

/-- A node that covers the characters of a text from one index up to another. -/
structure Syntax.Node.Spells (text : List Char) (a b : Nat) (w : Node) : Prop where
  ordered : a ≤ b
  fits : b ≤ text.length
  start : w.start = bytesBefore text a
  stop : w.stop = bytesBefore text b

namespace Discovery

variable {text : List Char} {a b : Nat} {w : Node}

theorem bytes_eq (h : w.Spells text a b) : w.bytes (encode text) = encode (stretch text a b) := by
  rw [Node.bytes, h.start, h.stop, stretch, encode_stretch, List.drop_take]

theorem ofBytes_eq (h : w.Spells text a b) :
    Span.ofBytes (encode text) w.start w.stop = .ok (.between text a b h.ordered) := by
  rw [Span.ofBytes, h.start, h.stop, ofOffset_bytesBefore, ofOffset_bytesBefore, Span.ofPositions,
    dif_pos (Position.not_after_before text h.ordered)]
  rfl

/-- The edits of a modifier that has the characters of a text from one index up to another. -/
def editsAt (text : List Char) (a b : Nat) (h : a ≤ b) : List Edit :=
  (Visibility.ofModifier (stretch text a b)).narrowings.map fun way => ⟨way, .between text a b h⟩

theorem narrowing_editsAt (text : List Char) {a b : Nat} (h : a ≤ b) :
    (editsAt text a b h).map Edit.narrowing =
      (Visibility.ofModifier (stretch text a b)).narrowings := by
  simp [editsAt, Function.comp_def]

theorem covered_editsAt (h : a ≤ b) (hb : b ≤ text.length) :
    ∀ x ∈ editsAt text a b h, x.span.covered text = .ok (stretch text a b) := by
  intro x hx
  obtain ⟨way, -, rfl⟩ := List.mem_map.mp hx
  exact Span.covered_between h hb

/-- The edits of a modifier are read off its characters. -/
theorem narrow_eq (h : w.Spells text a b) :
    narrow (encode text) (some w) = .ok (editsAt text a b h.ordered) := by
  simp only [narrow, editsAt, bind_eq_ok, mapError_eq_ok]
  refine ⟨stretch text a b, by rw [bytes_eq h, decode_encode], ?_⟩
  cases (Visibility.ofModifier (stretch text a b)).narrowings with
  | nil => rfl
  | cons way ways =>
      simp only [bind_eq_ok, mapError_eq_ok, pure_eq_ok]
      exact ⟨_, ofBytes_eq h, rfl⟩

theorem declaration_eq {d : Node} (hw : d.modifier? = some w) (h : w.Spells text a b) :
    declaration (encode text) d = .ok (editsAt text a b h.ordered) := by
  rw [declaration, hw, narrow_eq h]

end Discovery

/-! ### The text after a replacement -/

namespace Replacement

variable {r : Replacement} {text : List Char} {i j k : Nat}

/-- The characters that are there afterwards. -/
def literal (r : Replacement) : List Char :=
  r.way.replacement.toList

/-- The text afterwards, where the modifier has the characters from index `i` up to index `j`. -/
def newText (r : Replacement) (text : List Char) (i j : Nat) : List Char :=
  text.take i ++ r.literal ++ text.drop j

/-- Where a character after the modifier goes. -/
def moved (r : Replacement) (i j k : Nat) : Nat :=
  i + r.literal.length + (k - j)

theorem take_newText (hi : i ≤ text.length) (hk : k ≤ i) :
    (r.newText text i j).take k = text.take k := by
  have hlen : (text.take i).length = i := List.length_take_of_le hi
  rw [newText, List.append_assoc, List.take_append_of_le_length (by omega), List.take_take,
    Nat.min_eq_left hk]

theorem drop_newText (hi : i ≤ text.length) :
    (r.newText text i j).drop (i + r.literal.length) = text.drop j := by
  have hlen : (text.take i ++ r.literal).length = i + r.literal.length := by
    rw [List.length_append, List.length_take_of_le hi]
  exact List.drop_left' hlen

theorem drop_newText_moved (hi : i ≤ text.length) (hk : j ≤ k) :
    (r.newText text i j).drop (r.moved i j k) = text.drop k := by
  rw [moved, ← List.drop_drop, drop_newText hi, List.drop_drop, Nat.add_sub_cancel' hk]

theorem bytesBefore_newText (hi : i ≤ text.length) (hk : k ≤ i) :
    bytesBefore (r.newText text i j) k = bytesBefore text k := by
  rw [bytesBefore, take_newText hi hk, bytesBefore]

theorem bytesBefore_newText_literal (hi : i ≤ text.length) :
    bytesBefore (r.newText text i j) (i + r.literal.length) =
      bytesBefore text i + r.content.length := by
  have hdrop : (r.newText text i j).drop i = r.literal ++ text.drop j := by
    rw [newText, List.append_assoc]
    exact List.drop_left' (List.length_take_of_le hi)
  rw [bytesBefore_add, bytesBefore_newText hi (Nat.le_refl i), hdrop, List.take_left]
  rfl

theorem bytesBefore_newText_moved (hi : i ≤ text.length) (hk : j ≤ k) :
    bytesBefore (r.newText text i j) (r.moved i j k) =
      bytesBefore text k - bytesBefore text j + bytesBefore text i + r.content.length := by
  have hadd := bytesBefore_add text j (k - j)
  rw [Nat.add_sub_cancel' hk] at hadd
  rw [moved, bytesBefore_add, bytesBefore_newText_literal hi, drop_newText hi]
  omega

variable {w : Node} {a b : Nat}

/-- A node that ends before the modifier stays where it is. -/
theorem spells_of_le (h : r.old.Spells text i j) (hw : w.Spells text a b) (hb : b ≤ i) :
    (r.rewrite w).Spells (r.newText text i j) a b ∧
      stretch (r.newText text i j) a b = stretch text a b := by
  have hi : i ≤ text.length := Nat.le_trans h.ordered h.fits
  have ha : a ≤ i := Nat.le_trans hw.ordered hb
  have hlen : b ≤ (r.newText text i j).length := by
    rw [newText, List.length_append, List.length_append, List.length_take_of_le hi]
    omega
  refine ⟨⟨hw.ordered, hlen, ?_, ?_⟩, ?_⟩
  · rw [start_rewrite, hw.start, bytesBefore_newText hi ha, shift_of_le]
    rw [h.start]
    exact bytesBefore_mono text ha
  · rw [stop_rewrite, hw.stop, bytesBefore_newText hi hb, shift_of_le]
    rw [h.start]
    exact bytesBefore_mono text hb
  · rw [stretch, stretch, ← List.drop_take, ← List.drop_take, take_newText hi hb]

/-- A node that begins after the modifier moves. -/
theorem spells_of_ge (h : r.old.Spells text i j) (hw : w.Spells text a b) (ha : j ≤ a) :
    (r.rewrite w).Spells (r.newText text i j) (r.moved i j a) (r.moved i j b) ∧
      stretch (r.newText text i j) (r.moved i j a) (r.moved i j b) = stretch text a b := by
  have hi : i ≤ text.length := Nat.le_trans h.ordered h.fits
  have hab : a ≤ b := hw.ordered
  have hfits : b ≤ text.length := hw.fits
  have hshift : ∀ k, j ≤ k →
      r.shift (bytesBefore text k) = bytesBefore (r.newText text i j) (r.moved i j k) := by
    intro k hk
    rw [bytesBefore_newText_moved hi hk, shift_of_ge, h.start, h.stop]
    rw [h.stop]
    exact bytesBefore_mono text hk
  refine ⟨⟨?_, ?_, ?_, ?_⟩, ?_⟩
  · simp only [moved]
    omega
  · simp only [moved, newText, List.length_append, List.length_take_of_le hi, List.length_drop]
    omega
  · rw [start_rewrite, hw.start, hshift a ha]
  · rw [stop_rewrite, hw.stop, hshift b (Nat.le_trans ha hab)]
  · have hlen : r.moved i j b - r.moved i j a = b - a := by
      simp only [moved]
      omega
    rw [stretch, stretch, drop_newText_moved hi ha, hlen]

/-- A node apart from the modifier covers the same characters afterwards. -/
theorem spells_of_apart (h : r.old.Spells text i j) (hw : w.Spells text a b)
    (hapart : w.stop ≤ r.old.start ∨ r.old.stop ≤ w.start) :
    ∃ a' b', (r.rewrite w).Spells (r.newText text i j) a' b' ∧
      stretch (r.newText text i j) a' b' = stretch text a b := by
  rw [hw.start, hw.stop, h.start, h.stop] at hapart
  rcases hapart with hle | hle
  · exact ⟨a, b, spells_of_le h hw (index_le_of_bytesBefore hw.fits hle)⟩
  · exact ⟨_, _, spells_of_ge h hw (index_le_of_bytesBefore h.fits hle)⟩

/-- The new modifier covers the new characters. -/
theorem spells_new (h : r.old.Spells text i j) (hnew : r.new = some w) :
    w.Spells (r.newText text i j) i (i + r.literal.length) ∧
      stretch (r.newText text i j) i (i + r.literal.length) = r.literal := by
  have hi : i ≤ text.length := Nat.le_trans h.ordered h.fits
  have hway : r.way ≠ .toInherited := by
    intro hway
    rw [r.removed hway] at hnew
    cases hnew
  obtain ⟨w', hw', -, -, hstart, hstop⟩ := r.carried hway
  obtain rfl := Option.some.inj (hnew.symm.trans hw')
  refine ⟨⟨Nat.le_add_right _ _, ?_, ?_, ?_⟩, ?_⟩
  · simp only [newText, List.length_append, List.length_take_of_le hi]
    omega
  · rw [hstart, h.start, bytesBefore_newText hi (Nat.le_refl i)]
  · rw [hstop, h.start, bytesBefore_newText_literal hi]
    rfl
  · rw [stretch, newText, List.append_assoc, List.drop_left' (List.length_take_of_le hi),
      Nat.add_sub_cancel_left, List.take_left]

end Replacement

/-! ### One declaration -/

namespace Discovery

variable {r : Replacement} {text : List Char} {i j : Nat} {n d : Node}

/-- The edits of a declaration before a replacement and after it: the same narrowings in the same
order, at spans that cover the same characters, which are those of its modifier. -/
structure Kept (r : Replacement) (text text' : List Char) (d : Node) (xs xs' : List Edit) :
    Prop where
  before : declaration (encode text) d = .ok xs
  after : declaration (encode text') (r.rewrite d) = .ok xs'
  ways : xs'.map Edit.narrowing = xs.map Edit.narrowing
  covered : ∃ token, (∀ w, d.modifier? = some w → w.bytes (encode text) = encode token) ∧
    (∀ x ∈ xs, x.span.covered text = .ok token) ∧ ∀ x ∈ xs', x.span.covered text' = .ok token

/-- What is left to try on a modifier after it has been narrowed. -/
def remaining (way : Narrowing) : List Narrowing :=
  if way = .toCrate then [.toSelf, .toSuper, .toInherited] else []

/-- The edits of the declaration of a modifier that has been narrowed. -/
structure Spent (r : Replacement) (text' : List Char) (n : Node) (xs' : List Edit) : Prop where
  after : declaration (encode text') (r.rewrite n) = .ok xs'
  ways : xs'.map Edit.narrowing = remaining r.way
  covered : ∀ x ∈ xs', x.span.covered text' = .ok r.literal

theorem remaining_lt {way : Narrowing} {declares : Visibility} (h : way ∈ declares.narrowings) :
    (remaining way).length < declares.narrowings.length := by
  cases declares <;> cases way <;> simp [Visibility.narrowings, remaining] at h ⊢

/-- A narrower modifier can be narrowed further where it is `pub(crate)`. -/
theorem narrowings_literal (h : r.way ≠ .toInherited) :
    (Visibility.ofModifier r.literal).narrowings = remaining r.way := by
  rw [Replacement.literal]
  cases hway : r.way with
  | toCrate => decide
  | toSelf => decide
  | toSuper => decide
  | toInherited => exact absurd hway h

/-- A declaration whose modifier is apart from the one that is replaced keeps its edits. -/
theorem exists_kept (h : r.old.Spells text i j) (hd : r.old ∉ d.children)
    (hplaced : ∀ w, d.modifier? = some w → w.Placed text)
    (hapart : ∀ w, d.modifier? = some w → w.stop ≤ r.old.start ∨ r.old.stop ≤ w.start) :
    ∃ xs xs', Kept r text (r.newText text i j) d xs xs' := by
  have hmodifier := Replacement.modifier?_rewrite_of_not_mem hd
  cases hw : d.modifier? with
  | none =>
      rw [hw] at hmodifier
      refine ⟨[], [], ?_, ?_, rfl, [], ?_, ?_, ?_⟩
      · rw [declaration, hw]
        rfl
      · rw [declaration, hmodifier]
        rfl
      · intro w hsome
        rw [hw] at hsome
        cases hsome
      all_goals exact fun x hx => absurd hx List.not_mem_nil
  | some w =>
      obtain ⟨a, b, hab, hb, hstart, hstop⟩ := (hplaced w hw).stretch
      have hspells : w.Spells text a b := ⟨hab, hb, hstart, hstop⟩
      obtain ⟨a', b', hspells', hstretch⟩ := Replacement.spells_of_apart h hspells (hapart w hw)
      rw [hw] at hmodifier
      refine ⟨editsAt text a b hab, editsAt _ a' b' hspells'.ordered, declaration_eq hw hspells,
        declaration_eq hmodifier hspells', ?_, stretch text a b, ?_, covered_editsAt hab hb, ?_⟩
      · rw [narrowing_editsAt, narrowing_editsAt, hstretch]
      · intro w' hsome
        obtain rfl := Option.some.inj (hw.symm.trans hsome)
        exact bytes_eq hspells
      · rw [← hstretch]
        exact covered_editsAt hspells'.ordered hspells'.fits

/-- The declaration whose modifier is replaced has the edits of the new one. -/
theorem exists_spent (h : r.old.Spells text i j) (hn : n.modifier? = some r.old)
    (hone : (n.children.filter fun c => c.kind == .visibility).length ≤ 1) :
    ∃ xs', Spent r (r.newText text i j) n xs' := by
  have hmodifier := Replacement.modifier?_rewrite_self hn hone
  by_cases hway : r.way = .toInherited
  · rw [r.removed hway] at hmodifier
    refine ⟨[], ?_, ?_, fun x hx => absurd hx List.not_mem_nil⟩
    · rw [declaration, hmodifier]
      rfl
    · rw [hway]
      rfl
  · obtain ⟨w, hnew, -⟩ := r.carried hway
    obtain ⟨hspells, hstretch⟩ := Replacement.spells_new h hnew
    rw [hnew] at hmodifier
    refine ⟨editsAt _ _ _ hspells.ordered, declaration_eq hmodifier hspells, ?_, ?_⟩
    · rw [narrowing_editsAt, hstretch, narrowings_literal hway]
    · have hcovered := covered_editsAt hspells.ordered hspells.fits
      rwa [hstretch] at hcovered

/-! ### The whole walk -/

theorem inTurn_eq_flatMap {step : Node → Except WalkError (List Edit)} {found : Node → List Edit}
    {f : Node → Node} {ds : List Node} (h : ∀ d ∈ ds, step (f d) = .ok (found d)) :
    inTurn step (ds.map f) = .ok (ds.flatMap found) := by
  induction ds with
  | nil => rfl
  | cons d rest ih =>
      have hrest := ih fun x hx => h x (List.mem_cons_of_mem d hx)
      rw [List.map_cons, inTurn, h d List.mem_cons_self, hrest]
      rfl

theorem length_flatMap_le {found found' : Node → List Edit} {ds : List Node}
    (hle : ∀ d ∈ ds, (found' d).length ≤ (found d).length) :
    (ds.flatMap found').length ≤ (ds.flatMap found).length := by
  induction ds with
  | nil => exact Nat.le_refl _
  | cons d rest ih =>
      have hfirst := hle d List.mem_cons_self
      have hrest := ih fun x hx => hle x (List.mem_cons_of_mem d hx)
      simp only [List.flatMap_cons, List.length_append]
      omega

/-- One declaration with fewer edits is enough where none has more. -/
theorem length_flatMap_lt {found found' : Node → List Edit} {ds : List Node}
    (hle : ∀ d ∈ ds, (found' d).length ≤ (found d).length) (hn : n ∈ ds)
    (hlt : (found' n).length < (found n).length) :
    (ds.flatMap found').length < (ds.flatMap found).length := by
  obtain ⟨front, back, rfl⟩ := List.append_of_mem hn
  have hfront := length_flatMap_le fun d hd => hle d (List.mem_append_left _ hd)
  have hback := length_flatMap_le fun d hd =>
    hle d (List.mem_append_right _ (List.mem_cons_of_mem n hd))
  simp only [List.flatMap_append, List.flatMap_cons, List.length_append]
  omega

/-- A tree of which each visited declaration has at most one modifier. -/
def SingleModifiers (root : Node) : Prop :=
  ∀ d ∈ declared root, (d.children.filter fun c => c.kind == .visibility).length ≤ 1

instance (root : Node) : Decidable (SingleModifiers root) :=
  inferInstanceAs (Decidable (∀ d ∈ declared root, _))

/-- What the walk finds before the modifier of a declaration is narrowed, and after. -/
structure Narrowed (r : Replacement) (text text' : List Char) (root n : Node)
    (found found' : Node → List Edit) : Prop where
  before : walk (encode text) root = .ok ((declared root).flatMap found)
  after : walk (encode text') (r.rewrite root) = .ok ((declared root).flatMap found')
  others : ∀ d ∈ declared root, d ≠ n → Kept r text text' d (found d) (found' d)
  own : declaration (encode text) n = .ok (found n)
  spent : Spent r text' n (found' n)
  fewer : ((declared root).flatMap found').length < ((declared root).flatMap found).length

variable {root : Node}

theorem kind_of_modifier? {w : Node} (hw : d.modifier? = some w) : w.kind = .visibility := by
  have hfound := List.find?_some hw
  exact beq_iff_eq.mp hfound

theorem mem_modifiers {w : Node} {ds : List Node} (hd : d ∈ ds) (hw : d.modifier? = some w) :
    w ∈ modifiers ds :=
  List.mem_flatMap.mpr ⟨d, hd, by rw [hw]; exact Option.mem_toList.mpr rfl⟩

/-- The modifier of another declaration is apart from the one that is replaced. -/
theorem apart_of_ne (htree : TreeOver text root) (hn : n ∈ declared root)
    (hv : n.modifier? = some r.old) (hd : d ∈ declared root) (hne : d ≠ n) :
    r.old ∉ d.children ∧
      ∀ w, d.modifier? = some w → w.stop ≤ r.old.start ∨ r.old.stop ≤ w.start := by
  have hnot : r.old ∉ d.children := by
    intro hchild
    exact hne (htree.parent_unique r.old_nonempty (within_declared root hd) hchild
      (within_declared root hn) (mem_of_modifier? hv))
  refine ⟨hnot, ?_⟩
  intro w hw
  refine apart_of_pairwise (inRow_declared root htree.nested).1 (mem_modifiers hd hw)
    (mem_modifiers hn hv) ?_
  rintro rfl
  exact hnot (mem_of_modifier? hw)

/-- What is found at each declaration makes up what the walk finds. -/
theorem narrowed_of_found {text' : List Char} {found found' : Node → List Edit}
    (htree : TreeOver text root) (hn : n ∈ declared root) (hv : n.modifier? = some r.old)
    (hothers : ∀ d ∈ declared root, d ≠ n → Kept r text text' d (found d) (found' d))
    (hown : declaration (encode text) n = .ok (found n)) (hspent : Spent r text' n (found' n))
    (hless : (found' n).length < (found n).length) :
    Narrowed r text text' root n found found' := by
  have heach : ∀ d ∈ declared root, declaration (encode text) d = .ok (found d) ∧
      declaration (encode text') (r.rewrite d) = .ok (found' d) ∧
      (found' d).length ≤ (found d).length := by
    intro d hd
    by_cases hdn : d = n
    · rw [hdn]
      exact ⟨hown, hspent.after, Nat.le_of_lt hless⟩
    · have hkept := hothers d hd hdn
      have hlength := congrArg List.length hkept.ways
      rw [List.length_map, List.length_map] at hlength
      exact ⟨hkept.before, hkept.after, Nat.le_of_eq hlength⟩
  refine ⟨?_, ?_, hothers, hown, hspent, ?_⟩
  · have hturn : inTurn (declaration (encode text)) ((declared root).map id) =
        .ok ((declared root).flatMap found) := inTurn_eq_flatMap fun d hd => (heach d hd).1
    rwa [List.map_id, ← walk_eq] at hturn
  · rw [walk_eq, declared_rewrite root (sits_of_modifier htree hn hv)]
    exact inTurn_eq_flatMap fun d hd => (heach d hd).2.1
  · exact length_flatMap_lt (fun d hd => (heach d hd).2.2) hn hless

/-- What is found after a modifier has been narrowed, against what was found before. -/
theorem exists_narrowed (htree : TreeOver text root) (hsingle : SingleModifiers root)
    (hn : n ∈ declared root) (hv : n.modifier? = some r.old) (h : r.old.Spells text i j)
    (hway : r.way ∈ (Visibility.ofModifier (stretch text i j)).narrowings) :
    ∃ found found', Narrowed r text (r.newText text i j) root n found found' := by
  have hall : ∀ d ∈ declared root, ∃ xs xs',
      (d ≠ n → Kept r text (r.newText text i j) d xs xs') ∧
      (d = n → xs = editsAt text i j h.ordered ∧ Spent r (r.newText text i j) d xs') := by
    intro d hd
    by_cases hdn : d = n
    · subst hdn
      obtain ⟨xs', hspent⟩ := exists_spent h hv (hsingle d hd)
      exact ⟨_, xs', fun hne => absurd rfl hne, fun _ => ⟨rfl, hspent⟩⟩
    · obtain ⟨hnot, hapart⟩ := apart_of_ne htree hn hv hd hdn
      have hplaced : ∀ w, d.modifier? = some w → w.Placed text := by
        intro w hw
        exact htree w (.child (within_declared root hd) (mem_of_modifier? hw))
      obtain ⟨xs, xs', hkept⟩ := exists_kept h hnot hplaced hapart
      exact ⟨xs, xs', fun _ => hkept, fun heq => absurd heq hdn⟩
  choose! found found' hothers hself using hall
  obtain ⟨hfound, hspent⟩ := hself n hn rfl
  refine ⟨found, found', narrowed_of_found htree hn hv hothers ?_ hspent ?_⟩
  · rw [hfound]
    exact declaration_eq hv h
  · -- the ways that are left are fewer than those that there were
    have hleft := congrArg List.length hspent.ways
    have hright := congrArg List.length (narrowing_editsAt text h.ordered)
    have hlt := remaining_lt hway
    rw [List.length_map] at hleft hright
    rw [hfound]
    omega

/-- A modifier that can be narrowed belongs to one declaration. -/
theorem count_modifier (htree : TreeOver text root) (hn : n ∈ declared root) {v : Node}
    (hv : n.modifier? = some v) (hne : v.start < v.stop) :
    (modifiers (declared root)).count v = 1 := by
  have hpos := List.count_pos_iff.mpr (mem_modifiers hn hv)
  by_contra hone
  -- if it came twice, it would end before it begins
  have htwice : (List.replicate 2 v).Sublist (modifiers (declared root)) :=
    List.replicate_sublist_iff.mpr (by omega)
  have hpair := (inRow_declared root htree.nested).1.sublist htwice
  have hle := (List.pairwise_cons.mp hpair).1 v (by simp)
  omega

end Discovery

/-- An edit of the text that its span is of replaces the characters that the span covers. -/
theorem Candidate.mutated_eq {m : Candidate} {i j : Nat} (h : m.Covers m.file.code.toList (i, j)) :
    m.mutated = .ok (String.ofList (m.file.code.toList.take i ++ m.narrowing.replacement.toList ++
      m.file.code.toList.drop j)) := by
  have hsplice : m.applyTo (String.ofList (splice m.file.code.toList 0 [])) = _ :=
    Batch.applyTo_splice h.marks fun p hp => absurd hp List.not_mem_nil
  simpa [mutated, splice, patch] using hsplice

/-- What a narrowing makes of a modifier, with nothing inside. -/
def Replacement.plain (v : Node) (way : Narrowing) (hkind : v.kind = .visibility)
    (hne : v.start < v.stop) : Replacement where
  old := v
  way := way
  new := if way = .toInherited then none else
    some (.mk .visibility v.start (v.start + (encode way.replacement.toList).length) v.role
      false false [])
  old_kind := hkind
  old_nonempty := hne
  removed h := if_pos h
  carried h := ⟨_, if_neg h, rfl, rfl, rfl, rfl⟩

namespace Discovery

/-- **An edit narrows its own modifier and no other.**  Take any edit that is found in a tree over
the text of a file.  It belongs to the modifier of one declaration, and making it replaces the bytes
of that modifier.  In the tree of the new text, every other declaration has the edits that it had,
at spans that cover the same characters.  The declaration of the modifier has those of `pub(crate)`
if that is what was written, and none otherwise.  So there are fewer edits than before. -/
theorem walk_rewrite {file : SourceFile} {root : Node} {es : List Edit} {e : Edit}
    (htree : TreeOver file.code.toList root) (hsingle : SingleModifiers root)
    (hwalk : walk (encode file.code.toList) root = .ok es) (he : e ∈ es) :
    ∃ code n v, Candidate.mutated ⟨file, e.narrowing, e.span⟩ = .ok code ∧
      n ∈ declared root ∧ n.modifier? = some v ∧ (modifiers (declared root)).count v = 1 ∧
      Narrows (encode file.code.toList) v e ∧
      encode code.toList = (encode file.code.toList).take v.start ++
        encode e.narrowing.replacement.toList ++ (encode file.code.toList).drop v.stop ∧
      (∃ r : Replacement, r.old = v ∧ r.way = e.narrowing) ∧
      ∀ r : Replacement, r.old = v → r.way = e.narrowing → ∃ found found',
        Narrowed r file.code.toList code.toList root n found found' ∧ e ∈ found n := by
  have hturn := hwalk
  rw [walk_eq] at hturn
  obtain ⟨n, hn, own, hown, heown⟩ := inTurn_mem hturn he
  obtain ⟨v, hv, hnarrows⟩ := narrow_mem hown heown
  have hwithin : Within root v := .child (within_declared root hn) (mem_of_modifier? hv)
  obtain ⟨i, j, hij, hj, hstart, hstop, hfrom, hto⟩ := hnarrows.stretch (htree v hwithin)
  have hspells : v.Spells file.code.toList i j := ⟨Nat.le_of_lt hij, hj, hstart, hstop⟩
  have hkind : v.kind = .visibility := kind_of_modifier? hv
  have hne : v.start < v.stop := by
    rw [hstart, hstop]
    exact bytesBefore_strictMono _ hij hj
  have hway : e.narrowing ∈ (Visibility.ofModifier (stretch file.code.toList i j)).narrowings := by
    obtain ⟨token, htoken, hway⟩ := hnarrows.way
    rw [bytes_eq hspells, decode_encode] at htoken
    rwa [← Except.ok.inj htoken] at hway
  have hmutated := Candidate.mutated_eq (m := ⟨file, e.narrowing, e.span⟩) (i := i) (j := j)
    ⟨hij, hj, hfrom, hto⟩
  refine ⟨_, n, v, hmutated, hn, hv, count_modifier htree hn hv hne, hnarrows, ?_,
    ⟨.plain v e.narrowing hkind hne, rfl, rfl⟩, ?_⟩
  · rw [String.toList_ofList, encode_append, encode_append, encode_drop, hstart, hstop]
    have htake := encode_stretch file.code.toList 0 i
    simp only [List.drop_zero, Nat.sub_zero] at htake
    rw [htake]
    rfl
  · rintro r rfl hrway
    rw [← hrway] at hway ⊢
    obtain ⟨found, found', hfound⟩ := exists_narrowed htree hsingle hn hv hspells hway
    rw [String.toList_ofList]
    refine ⟨found, found', hfound, ?_⟩
    rwa [← Except.ok.inj (hown.symm.trans hfound.own)]

/-- A file with a modifier that goes over two lines, after a character of two bytes. -/
def splitFile : SourceFile where
  path := Path.ofText "/crate/src/lib.rs"
  relative := Path.ofText "src/lib.rs"
  code := "// é\npub(\ncrate) struct S \x7b pub a: u8 \x7d\n"

/-- Its tree. -/
def splitTree : Node :=
  .mk (.other "source_file") 6 40 .none false false
    [.mk .structItem 6 40 .none false false
      [.mk .visibility 6 17 .none false false [],
        .mk .fieldList 27 40 .body false false
          [.mk .field 29 38 .none false false [.mk .visibility 29 32 .none false false []]]]]

-- here the parser does find the rewritten tree
example : (Rust.parse splitFile.code).toOption = some splitTree ∧
    (Rust.parse "// é\npub(self) struct S \x7b pub a: u8 \x7d\n").toOption =
      some ((Replacement.plain (.mk .visibility 6 17 .none false false []) .toSelf rfl
        (by decide)).rewrite splitTree) := by decide +kernel

/-- One of its edits: `pub(crate)` becomes `pub(self)`. -/
def splitEdit : Edit :=
  ⟨.toSelf, .between splitFile.code.toList 5 16 (by decide)⟩

/-- There are seven edits before that edit is made, and fewer after. -/
theorem walk_rewrite_splitFile :
    ∃ (es es' : List Edit) (r : Replacement),
      walk (encode splitFile.code.toList) splitTree = .ok es ∧ splitEdit ∈ es ∧ es.length = 7 ∧
      r.way = .toSelf ∧
      walk (encode "// é\npub(self) struct S \x7b pub a: u8 \x7d\n".toList) (r.rewrite splitTree) =
        .ok es' ∧ es'.length < 7 := by
  have hevals : ∃ es, walk (encode splitFile.code.toList) splitTree = .ok es ∧ splitEdit ∈ es ∧
      es.length = 7 :=
    ⟨editsAt splitFile.code.toList 5 16 (by decide) ++
      editsAt splitFile.code.toList 28 31 (by decide), by decide +kernel⟩
  have hmutated : Candidate.mutated ⟨splitFile, splitEdit.narrowing, splitEdit.span⟩ =
      .ok "// é\npub(self) struct S \x7b pub a: u8 \x7d\n" := by decide +kernel
  obtain ⟨es, hwalk, hmem, hseven⟩ := hevals
  obtain ⟨code, n, v, hcode, -, -, -, -, -, ⟨r, hold, hway⟩, hall⟩ :=
    walk_rewrite (treeOver_of_check splitTree (by decide +kernel)) (by decide) hwalk hmem
  obtain rfl := Except.ok.inj (hmutated.symm.trans hcode)
  obtain ⟨found, found', hnarrowed, -⟩ := hall r hold hway
  have hfewer := hnarrowed.fewer
  rw [← Except.ok.inj (hwalk.symm.trans hnarrowed.before), hseven] at hfewer
  exact ⟨es, _, r, hwalk, hmem, hseven, hway, hnarrowed.after, hfewer⟩

end Discovery

end Tighten
