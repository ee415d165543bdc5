import Tighten.Proofs.JsonRoundTrip

/-
Documents are written in plain text.

Nothing but newlines and printable ASCII characters stands in a document, whatever the values in it:
a string spells out every other character, and the texts of numbers are made of digits, signs and
letters.  So a document has one form in every encoding that extends ASCII, and no line of it ends
with anything but a newline.
-/
namespace Tighten.Json

/-- A newline or a printable ASCII character. -/
def IsPlain (c : Char) : Prop :=
  c = '\n' ∨ ' ' ≤ c ∧ c ≤ '~'

instance (c : Char) : Decidable (IsPlain c) :=
  inferInstanceAs (Decidable (c = '\n' ∨ ' ' ≤ c ∧ c ≤ '~'))

/-- Nothing but such characters. -/
def Plain (text : List Char) : Prop :=
  ∀ c ∈ text, IsPlain c

instance (text : List Char) : Decidable (Plain text) :=
  List.decidableBAll IsPlain text

@[simp] theorem plain_nil : Plain [] := by
  simp [Plain]

@[simp] theorem plain_cons {c : Char} {text : List Char} :
    Plain (c :: text) ↔ IsPlain c ∧ Plain text :=
  List.forall_mem_cons

@[simp] theorem plain_append {text rest : List Char} :
    Plain (text ++ rest) ↔ Plain text ∧ Plain rest :=
  List.forall_mem_append

theorem Plain.mono {text part : List Char} (h : Plain text) (hsub : part ⊆ text) : Plain part := by
  intro c hc
  exact h c (hsub hc)

theorem plain_replicate {c : Char} (hc : IsPlain c) (k : Nat) : Plain (List.replicate k c) := by
  intro d hd
  rw [List.eq_of_mem_replicate hd]
  exact hc

/-! ### Strings -/

theorem isPlain_digitChar {d : Nat} (h : d < 16) : IsPlain d.digitChar := by
  have hall : ∀ d < 16, IsPlain d.digitChar := by decide
  exact hall d h

theorem plain_hex {n : Nat} (h : n < 0x10000) : Plain (Text.Quoted.hex 4 n) := by
  rw [hex_four h]
  simp only [plain_cons, plain_nil, and_true]
  exact ⟨isPlain_digitChar (by omega), isPlain_digitChar (by omega), isPlain_digitChar (by omega),
    isPlain_digitChar (by omega)⟩

theorem lt_of_mem_units {c : Char} {u : Nat} (h : u ∈ units c) : u < 0x10000 := by
  by_cases hplane : c.toNat < 0x10000
  · have hunits : units c = [c.toNat] := if_pos hplane
    rw [hunits, List.mem_singleton] at h
    omega
  · obtain ⟨high, low, hunits, hhigh, hlow, -⟩ := units_pair (Nat.le_of_not_lt hplane)
    rw [hunits, List.mem_pair] at h
    obtain rfl | rfl := h
    · exact lt_of_isHighSurrogate hhigh
    · exact lt_of_isLowSurrogate hlow

theorem isPlain_of_escapeLetter? {c letter : Char} (h : escapeLetter? c = some letter) :
    IsPlain letter := by
  unfold escapeLetter? at h
  split at h <;> cases h <;> decide

/-- A character is spelled in plain characters. -/
theorem plain_spell (c : Char) : Plain (spell c) := by
  unfold spell
  split
  · next letter hletter =>
      have hslash : IsPlain '\\' := by decide
      simp [hslash, isPlain_of_escapeLetter? hletter]
  · by_cases hshown : ' ' ≤ c ∧ c ≤ '~'
    · rw [if_pos hshown]
      have hc : IsPlain c := Or.inr hshown
      simp [hc]
    · rw [if_neg hshown]
      intro d hd
      obtain ⟨u, hu, hmem⟩ := List.mem_flatMap.mp hd
      have hall : Plain ('\\' :: 'u' :: Text.Quoted.hex 4 u) := by
        simp only [plain_cons]
        exact ⟨by decide, by decide, plain_hex (lt_of_mem_units hu)⟩
      exact hall d hmem

/-- So is half of a pair. -/
theorem CodePoint.plain_spell (p : CodePoint) : Plain p.spell := by
  cases p with
  | char c => exact Json.plain_spell c
  | half h =>
      have hrange := h.property
      rw [CodePoint.spell, plain_cons, plain_cons]
      exact ⟨by decide, by decide, plain_hex (by omega)⟩

theorem plain_flatMap {α : Type} {f : α → List Char} (h : ∀ a, Plain (f a)) (as : List α) :
    Plain (as.flatMap f) := by
  intro c hc
  obtain ⟨a, -, ha⟩ := List.mem_flatMap.mp hc
  exact h a c ha

theorem plain_quoted {body : List Char} (h : Plain body) : Plain ('"' :: body ++ ['"']) := by
  have hquote : IsPlain '"' := by decide
  simp [hquote, h]

theorem plain_stringText (text : String) : Plain (stringText text) :=
  plain_quoted (plain_flatMap plain_spell text.toList)

theorem Torn.plain_stringText (t : Torn) : Plain t.stringText :=
  plain_quoted (plain_flatMap CodePoint.plain_spell t.points)

theorem Literal.plain_stringText (name : Literal) : Plain name.stringText := by
  cases name with
  | text s => exact Json.plain_stringText s
  | torn t => exact t.plain_stringText

/-! ### Numbers -/

theorem Digits.plain {ds : List Char} (h : Digits ds) : Plain ds := by
  intro c hc
  have hdigit := h c hc
  simp only [Char.isDigit, Bool.and_eq_true, decide_eq_true_eq] at hdigit
  have hlow : 48 ≤ c.toNat := hdigit.1
  have hhigh : c.toNat ≤ 57 := hdigit.2
  have hspace : ' '.toNat ≤ c.toNat := Nat.le_trans (by decide) hlow
  have htilde : c.toNat ≤ '~'.toNat := Nat.le_trans hhigh (by decide)
  exact Or.inr ⟨hspace, htilde⟩

theorem plain_toDigits (n : Nat) : Plain (Nat.toDigits 10 n) :=
  (digits_toDigits n).plain

theorem plain_sign (negative : Bool) : Plain (if negative then ['-'] else []) := by
  cases negative with
  | true => decide
  | false => decide

theorem plain_toString (n : Int) : Plain (toString n).toList := by
  rw [toList_toString, plain_append]
  exact ⟨plain_sign _, plain_toDigits _⟩

theorem plain_positional {ds : List Char} (h : Plain ds) (point : Int) :
    Plain (Double.positional ds point) := by
  have hzeros : ∀ k, Plain (List.replicate k '0') := plain_replicate (by decide)
  have hpoint : Plain ['.'] := by decide
  unfold Double.positional
  split
  · rw [plain_append, plain_append]
    exact ⟨⟨by decide, hzeros _⟩, h⟩
  · split
    · rw [plain_append, plain_append]
      exact ⟨⟨h, hzeros _⟩, by decide⟩
    · rw [plain_append, plain_append]
      exact ⟨⟨h.mono (List.take_subset _ _), hpoint⟩, h.mono (List.drop_subset _ _)⟩

theorem plain_scientific (style : Double.Style) {ds : List Char} (h : Plain ds) (x : Int) :
    Plain (Double.scientific style ds x) := by
  have hmark : Plain ['e', if x < 0 then '-' else '+'] := by
    split
    · decide
    · decide
  unfold Double.scientific
  simp only [plain_append]
  refine ⟨⟨⟨⟨h.mono (List.take_subset 1 ds), ?_⟩, hmark⟩, plain_replicate (by decide) _⟩,
    plain_toDigits _⟩
  have hdrop : Plain (ds.drop 1) := h.mono (List.drop_subset 1 ds)
  split
  · exact plain_nil
  · exact plain_cons.mpr ⟨by decide, hdrop⟩

theorem plain_numberText (x : Double) : Plain (numberText x).toList := by
  match x with
  | .undefined => decide
  | .infinite true => decide
  | .infinite false => decide
  | .finite negative m e =>
      show Plain (Double.toText (.finite negative m e)).toList
      unfold Double.toText
      rw [String.toList_ofList, plain_append]
      refine ⟨plain_sign negative, ?_⟩
      split
      · decide
      · dsimp only
        split
        · exact plain_positional (plain_toDigits _) _
        · exact plain_scientific _ (plain_toDigits _) _

/-! ### Documents -/

theorem plain_newLine (margin : Nat) : Plain (newLine margin) := by
  rw [newLine, plain_cons]
  exact ⟨by decide, plain_replicate (by decide) margin⟩

mutual

/-- A value is written in plain text. -/
theorem plain_write (margin : Nat) : (v : Json) → Plain (write margin v)
  | .null => by
      rw [write]
      decide
  | .bool true => by
      rw [write]
      decide
  | .bool false => by
      rw [write]
      decide
  | .int n => by
      rw [write]
      exact plain_toString n
  | .double x => by
      rw [write]
      exact plain_numberText x
  | .str s => by
      rw [write]
      exact plain_stringText s
  | .torn t => by
      rw [write]
      exact t.plain_stringText
  | .arr [] => by
      rw [write]
      decide
  | .arr (item :: items) => by
      rw [write]
      simp only [plain_append, plain_cons, plain_nil, and_true]
      exact ⟨⟨⟨⟨⟨by decide, plain_newLine _⟩, plain_write (margin + indent) item⟩,
        plain_writeItems (margin + indent) items⟩, plain_newLine _⟩, by decide⟩
  | .obj [] => by
      rw [write]
      decide
  | .obj (m :: ms) => by
      rw [write]
      simp only [plain_append, plain_cons, plain_nil, and_true]
      exact ⟨⟨⟨⟨⟨by decide, plain_newLine _⟩, plain_writeMember (margin + indent) m⟩,
        plain_writeMembers (margin + indent) ms⟩, plain_newLine _⟩, by decide⟩

theorem plain_writeItems (margin : Nat) : (items : List Json) → Plain (writeItems margin items)
  | [] => by
      rw [writeItems]
      exact plain_nil
  | item :: items => by
      rw [writeItems]
      simp only [plain_append, plain_cons]
      exact ⟨⟨⟨by decide, plain_newLine _⟩, plain_write margin item⟩, plain_writeItems margin items⟩

theorem plain_writeMember (margin : Nat) : (m : Literal × Json) → Plain (writeMember margin m)
  | (name, value) => by
      rw [writeMember]
      simp only [plain_append]
      exact ⟨⟨name.plain_stringText, by decide⟩, plain_write margin value⟩

theorem plain_writeMembers (margin : Nat) :
    (ms : List (Literal × Json)) → Plain (writeMembers margin ms)
  | [] => by
      rw [writeMembers]
      exact plain_nil
  | m :: ms => by
      rw [writeMembers]
      simp only [plain_append, plain_cons]
      exact ⟨⟨⟨by decide, plain_newLine _⟩, plain_writeMember margin m⟩,
        plain_writeMembers margin ms⟩

end

end Tighten.Json
