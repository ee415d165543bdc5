import Mathlib.Data.List.TakeWhile
import Tighten.Proofs.Utf8
import Tighten.Region
import Tighten.Span

/-
One position, two ways to compute it.

A place in a text is what stands before it.  Its line and column can be read off those characters;
discovery instead gets them from a byte offset, and editing turns them back into an offset in
characters.  Both agree with `Position.after`: the first way leads to it, the second leads from it
back to the number of characters.  What comes after the place has no part in either.

Everything rests on one distinction.  The text before a place either has no newline or ends in a
last line that has none, and then the lines above do not depend on it.
-/
namespace Tighten

open Text.Utf8 (encode)

/-! ### The last line -/

/-- The characters since the last newline. -/
def lastLine (front : List Char) : List Char :=
  (front.reverse.takeWhile (· ≠ '\n')).reverse

theorem lastLine_of_not_mem {line : List Char} (h : '\n' ∉ line) : lastLine line = line := by
  rw [lastLine, List.takeWhile_eq_self_iff.mpr, List.reverse_reverse]
  intro c hc
  have hne : c ≠ '\n' := fun heq => h (heq ▸ List.mem_reverse.mp hc)
  simpa using hne

theorem lastLine_append {line : List Char} (h : '\n' ∉ line) (above : List Char) :
    lastLine (above ++ '\n' :: line) = line := by
  have hline : ∀ c ∈ line.reverse, decide (c ≠ '\n') = true := by
    intro c hc
    have hne : c ≠ '\n' := fun heq => h (heq ▸ List.mem_reverse.mp hc)
    simpa using hne
  rw [lastLine, List.reverse_append, List.reverse_cons, List.append_assoc,
    List.takeWhile_append_of_pos hline]
  simp

/-- A text has no newline, or ends in a last line after one. -/
theorem exists_lastLine (front : List Char) :
    '\n' ∉ front ∨ ∃ above line, front = above ++ '\n' :: line ∧ '\n' ∉ line := by
  induction front with
  | nil => exact Or.inl List.not_mem_nil
  | cons c front ih =>
      rcases ih with hnone | ⟨above, line, rfl, hline⟩
      · by_cases hc : c = '\n'
        · exact Or.inr ⟨[], front, by rw [hc, List.nil_append], hnone⟩
        · exact Or.inl (List.not_mem_cons_of_ne_of_not_mem (Ne.symm hc) hnone)
      · exact Or.inr ⟨c :: above, line, rfl, hline⟩

/-- The last line grows while no newline is added. -/
theorem lastLine_append_of_not_mem {more : List Char} (h : '\n' ∉ more) (front : List Char) :
    lastLine (front ++ more) = lastLine front ++ more := by
  rcases exists_lastLine front with hnone | ⟨above, line, rfl, hline⟩
  · rw [lastLine_of_not_mem hnone, lastLine_of_not_mem (by simp [hnone, h])]
  · rw [lastLine_append hline, List.append_assoc, List.cons_append,
      lastLine_append (by simp [hline, h])]

/-! ### The position after a text -/

/-- The position of the character after a text. -/
def Position.after (front : List Char) : Position where
  line := front.count '\n' + 1
  column := (lastLine front).length + 1

/-- Positions increase along a text. -/
theorem Position.after_before (front : List Char) {more : List Char} (h : more ≠ []) :
    (Position.after front).before (Position.after (front ++ more)) = true := by
  have hpos := List.length_pos_iff.mpr h
  by_cases hmem : '\n' ∈ more
  · have hcount := List.count_pos_iff.mpr hmem
    simp only [before, after, List.count_append, Bool.or_eq_true, decide_eq_true_eq]
    omega
  · simp only [before, after, List.count_append, List.count_eq_zero.mpr hmem,
      lastLine_append_of_not_mem hmem, List.length_append, Bool.or_eq_true, Bool.and_eq_true,
      decide_eq_true_eq, beq_iff_eq]
    exact Or.inr ⟨trivial, by omega⟩

theorem Position.after_take_before {text : List Char} {a b : Nat} (hab : a < b)
    (hb : b ≤ text.length) :
    (Position.after (text.take a)).before (Position.after (text.take b)) = true := by
  have htake : text.take b = text.take a ++ (text.drop a).take (b - a) := by
    rw [← List.take_add, Nat.add_sub_cancel' (Nat.le_of_lt hab)]
  rw [htake]
  refine after_before (text.take a) (List.ne_nil_of_length_pos ?_)
  rw [List.length_take, List.length_drop]
  omega

/-! ### The order of spans -/

theorem Position.before_iff {p q : Position} :
    p.before q = true ↔ p.line < q.line ∨ p.line = q.line ∧ p.column < q.column := by
  simp only [before, Bool.or_eq_true, Bool.and_eq_true, decide_eq_true_eq, beq_iff_eq]

theorem Position.beq_iff {p q : Position} :
    (p == q) = true ↔ p.line = q.line ∧ p.column = q.column := by
  obtain ⟨line, column, _, _⟩ := p
  obtain ⟨line', column', _, _⟩ := q
  simp

theorem Span.ext {s t : Span} (hstart : s.start = t.start) (hstop : s.stop = t.stop) : s = t := by
  obtain ⟨start, stop, _⟩ := s
  obtain ⟨start', stop', _⟩ := t
  simp only [Span.mk.injEq]
  exact ⟨hstart, hstop⟩

theorem Span.before_iff {s t : Span} :
    s.before t = true ↔ s.start.before t.start = true ∨
      (s.start == t.start) = true ∧ s.stop.before t.stop = true := by
  simp only [before, Bool.or_eq_true, Bool.and_eq_true]

/-- Of two spans one does not come before the other. -/
theorem Span.before_asymm (s t : Span) : (!s.before t || !t.before s) = true := by
  by_cases hst : s.before t = true
  · have hts : t.before s ≠ true := by
      intro hts
      simp only [before_iff, Position.before_iff, Position.beq_iff] at hst hts
      omega
    simp [hts]
  · simp [hst]

/-- What comes before no further than a span comes before no further still. -/
theorem Span.not_before_trans {r s t : Span} (hrs : (!r.before s) = true)
    (hst : (!s.before t) = true) : (!r.before t) = true := by
  rw [Bool.not_eq_true', Bool.eq_false_iff] at *
  intro hrt
  simp only [before_iff, Position.before_iff, Position.beq_iff, ne_eq] at *
  omega

/-- Spans neither of which comes before the other are the same. -/
theorem Span.eq_of_not_before {s t : Span} (hst : (!s.before t) = true)
    (hts : (!t.before s) = true) : s = t := by
  rw [Bool.not_eq_true', Bool.eq_false_iff] at hst hts
  simp only [before_iff, Position.before_iff, Position.beq_iff, ne_eq] at hst hts
  have hstart : s.start = t.start := beq_iff_eq.mp (Position.beq_iff.mpr (by omega))
  have hstop : s.stop = t.stop := beq_iff_eq.mp (Position.beq_iff.mpr (by omega))
  exact Span.ext hstart hstop

/-! ### From bytes -/

/-- The middle of three parts. -/
theorem slice_middle {α : Type} {a b c : List α} {i j : Int} (hi : i = a.length)
    (hj : j = a.length + b.length) : slice (a ++ (b ++ c)) i j = b := by
  subst hi hj
  have hstart : min a.length (a.length + (b.length + c.length)) = a.length := by omega
  have hstop : min (a.length + b.length) (a.length + (b.length + c.length))
    = a.length + b.length := by omega
  have hnat : ((a.length : Int) + b.length).toNat = a.length + b.length := by omega
  simp only [slice, List.length_append, Int.toNat_natCast, hnat, hstart, hstop]
  rw [if_neg (by omega), if_neg (by omega), List.take_length_add_append, List.drop_left,
    List.take_left]

theorem newline_not_mem_encode {line : List Char} (h : '\n' ∉ line) : newline ∉ encode line := by
  intro hmem
  have hcount := List.count_pos_iff.mpr hmem
  rw [newline, Text.Utf8.count_encode] at hcount
  exact h (List.count_pos_iff.mp hcount)

/-- The bytes since the last newline, where those of the last line are followed by others. -/
theorem exists_lineBytes (front : List Char) {cut : List UInt8} (h : newline ∉ cut) :
    ∃ above, encode front = above ++ encode (lastLine front) ∧
      (encode front ++ cut).reverse.takeWhile (· ≠ newline)
        = (encode (lastLine front) ++ cut).reverse := by
  have hline : ∀ {line : List Char}, '\n' ∉ line →
      ∀ b ∈ (encode line ++ cut).reverse, decide (b ≠ newline) = true := by
    intro line hline b hb
    have hnot : newline ∉ encode line ++ cut := by
      simpa [h] using newline_not_mem_encode hline
    have hne : b ≠ newline := fun heq => hnot (heq ▸ List.mem_reverse.mp hb)
    simpa using hne
  rcases exists_lastLine front with hnone | ⟨above, line, rfl, hlast⟩
  · refine ⟨[], by rw [lastLine_of_not_mem hnone, List.nil_append], ?_⟩
    rw [lastLine_of_not_mem hnone, List.takeWhile_eq_self_iff.mpr (hline hnone)]
  · have hbytes : encode (above ++ '\n' :: line) = (encode above ++ [newline]) ++ encode line := by
      rw [Text.Utf8.encode_append, Text.Utf8.encode_cons, List.append_assoc]
      rfl
    refine ⟨encode above ++ [newline], by rw [lastLine_append hlast, hbytes], ?_⟩
    rw [lastLine_append hlast, hbytes, List.append_assoc, List.reverse_append,
      List.takeWhile_append_of_pos (hline hlast), List.reverse_concat,
      List.takeWhile_cons_of_neg (by simp), List.append_nil]

/-- The position of a byte offset goes by what is read of its line: the characters since the last
newline, and the bytes after them. -/
theorem Position.ofOffset_append (front : List Char) {cut : List UInt8} (h : newline ∉ cut)
    (rest : List UInt8) :
    Position.ofOffset (encode front ++ (cut ++ rest)) ((encode front).length + cut.length) =
      { line := front.count '\n' + 1
        column := (Text.Utf8.decodeLossy (encode (lastLine front) ++ cut)).length + 1 } := by
  have htake : (encode front ++ (cut ++ rest)).take ((encode front).length + cut.length)
      = encode front ++ cut := by
    rw [← List.append_assoc, ← List.length_append, List.take_left]
  have hrow : (encode front ++ cut).count newline = front.count '\n' := by
    rw [List.count_append, List.count_eq_zero.mpr h, Nat.add_zero]
    exact Text.Utf8.count_encode front
  obtain ⟨above, habove, hline⟩ := exists_lineBytes front h
  have hslice : slice (encode front ++ (cut ++ rest))
      (((encode front).length + cut.length : Nat) - ((encode (lastLine front) ++ cut).length : Int))
      ((encode front).length + cut.length : Nat) = encode (lastLine front) ++ cut := by
    rw [habove, List.append_assoc, ← List.append_assoc (encode (lastLine front))]
    refine slice_middle ?_ ?_
    · simp only [List.length_append]
      omega
    · simp only [List.length_append]
      omega
  simp only [ofOffset, Point.ofOffset, htake, hrow, hline, List.length_reverse, ofPoint, columnAt,
    hslice]

/-- The position of the byte offset just past a text is the one after the text. -/
theorem Position.ofOffset_encode (front back : List Char) :
    Position.ofOffset (encode (front ++ back)) (encode front).length = Position.after front := by
  have hnil : newline ∉ ([] : List UInt8) := List.not_mem_nil
  have h := Position.ofOffset_append front hnil (encode back)
  simp only [List.nil_append, List.length_nil, Nat.add_zero, List.append_nil,
    Text.Utf8.decodeLossy_encode, ← Text.Utf8.encode_append] at h
  exact h

/-! ### Back to characters -/

namespace Text

theorem lines_append_newline (above rest : List Char) :
    lines (above ++ '\n' :: rest) = lines above ++ lines rest := by
  induction above with
  | nil => simp [lines]
  | cons c above ih =>
      by_cases hc : c = '\n'
      · simp [lines, hc, ih]
      · obtain ⟨first, others, hlines⟩ := List.exists_cons_of_ne_nil (lines_ne_nil above)
        simp [lines, hc, ih, hlines]

theorem lines_append_of_not_mem {line : List Char} (h : '\n' ∉ line) (back : List Char) :
    ∃ tail others, lines (line ++ back) = (line ++ tail) :: others := by
  induction line with
  | nil =>
      obtain ⟨first, others, hlines⟩ := List.exists_cons_of_ne_nil (lines_ne_nil back)
      exact ⟨first, others, hlines⟩
  | cons c line ih =>
      rw [List.mem_cons, not_or] at h
      obtain ⟨tail, others, hlines⟩ := ih h.2
      refine ⟨tail, others, ?_⟩
      rw [List.cons_append, lines, if_neg (Ne.symm h.1), hlines]
      rfl

/-- With a newline after each, the lines are as long as the text and one newline more. -/
theorem sum_lines (text : List Char) :
    ((lines text).map fun l => l.length + 1).foldr (· + ·) 0 = text.length + 1 := by
  induction text with
  | nil => rfl
  | cons c text ih =>
      by_cases hc : c = '\n'
      · simp only [lines, hc, if_true, List.map_cons, List.foldr_cons, ih, List.length_nil,
          List.length_cons]
        omega
      · obtain ⟨first, others, hlines⟩ := List.exists_cons_of_ne_nil (lines_ne_nil text)
        simp only [hlines, List.map_cons, List.foldr_cons] at ih
        simp only [lines, hc, if_false, hlines, List.map_cons, List.foldr_cons, List.length_cons]
        omega

/-- The lines of a text up to a place: those above, and the one that the last line begins. -/
theorem exists_lines_append (front back : List Char) :
    ∃ above tail others, lines (front ++ back) = above ++ (lastLine front ++ tail) :: others ∧
      above.length = front.count '\n' ∧
      (above.map fun l => l.length + 1).foldr (· + ·) 0 + (lastLine front).length =
        front.length := by
  rcases exists_lastLine front with hnone | ⟨text, line, rfl, hline⟩
  · obtain ⟨tail, others, hlines⟩ := lines_append_of_not_mem hnone back
    refine ⟨[], tail, others, ?_, ?_, ?_⟩
    · rw [lastLine_of_not_mem hnone, hlines, List.nil_append]
    · rw [List.count_eq_zero.mpr hnone, List.length_nil]
    · simp [lastLine_of_not_mem hnone]
  · obtain ⟨tail, others, hlines⟩ := lines_append_of_not_mem hline back
    refine ⟨lines text, tail, others, ?_, ?_, ?_⟩
    · rw [lastLine_append hline, List.append_assoc, List.cons_append, lines_append_newline, hlines]
    · rw [length_lines, List.count_append, List.count_cons_self, List.count_eq_zero.mpr hline]
    · rw [lastLine_append hline, sum_lines, List.length_append, List.length_cons]
      omega

end Text

/-- The offset of the position after a text is the length of the text. -/
theorem Region.offset_after (front back : List Char) :
    Region.offset (Text.lines (front ++ back)) (Position.after front) = .ok front.length := by
  obtain ⟨above, tail, others, hlines, hlength, hsum⟩ := Text.exists_lines_append front back
  have hindex : (Position.after front).line - 1 = above.length := hlength.symm
  have hline : (above ++ (lastLine front ++ tail) :: others)[above.length]?
      = some (lastLine front ++ tail) := by simp
  simp only [offset, hlines, hindex, hline, List.take_left]
  rw [if_neg]
  · simp only [Position.after, Except.ok.injEq]
    omega
  · simp only [Position.after, List.length_append]
    omega

end Tighten
