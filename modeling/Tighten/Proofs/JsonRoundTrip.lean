import Tighten.Proofs.Numerals

/-
Documents that are read as they were written.

A character of a string is written as itself, as a letter after a backslash, or by the numbers of
its UTF-16 units, and whichever it was, it is read back from as many characters.  Between the parts
of a document the writer puts nothing but blanks, and the reader passes over them.  So a value is
read up to where its text ends, whatever follows it, as long as that could not go on with a number.

There must be room for the brackets of a value.  The induction is on that room: between brackets
there is less of it, and the items of a list, or the members of an object, are read one after the
other with the room that is left.
-/
namespace Tighten.Json

/-! ### Hexadecimal digits -/

theorem hexDigit?_digitChar {d : Nat} (h : d < 16) : hexDigit? d.digitChar = some d := by
  have hall : ∀ d < 16, hexDigit? d.digitChar = some d := by decide
  exact hall d h

/-- A number is written with its last digit after those of the number without it. -/
theorem hex_succ {width : Nat} (hwidth : 0 < width) (n : Nat) :
    Text.Quoted.hex (width + 1) n =
      Text.Quoted.hex width (n / 16) ++ [(n % 16).digitChar] := by
  unfold Text.Quoted.hex
  dsimp only
  rw [Nat.toDigits_eq_if (by decide)]
  by_cases hn : n < 16
  · obtain ⟨width, rfl⟩ := Nat.exists_eq_succ_of_ne_zero (Nat.ne_of_gt hwidth)
    rw [if_pos hn, Nat.div_eq_of_lt hn, Nat.mod_eq_of_lt hn, Nat.toDigits_zero]
    simp [List.replicate_succ']
  · rw [if_neg hn, List.length_append, List.length_singleton, Nat.add_sub_add_right,
      List.append_assoc]

theorem hex_four {n : Nat} (h : n < 0x10000) :
    Text.Quoted.hex 4 n =
      [(n / 16 / 16 / 16).digitChar, (n / 16 / 16 % 16).digitChar, (n / 16 % 16).digitChar,
        (n % 16).digitChar] := by
  have hone : Text.Quoted.hex 1 (n / 16 / 16 / 16) = [(n / 16 / 16 / 16).digitChar] := by
    unfold Text.Quoted.hex
    rw [Nat.toDigits_of_lt_base (by omega)]
    rfl
  rw [hex_succ (by decide), hex_succ (by decide), hex_succ (by decide), hone]
  rfl

/-- Four digits are read as the number they were written for. -/
theorem hexFour?_hex {n : Nat} (h : n < 0x10000) :
    ∃ a b c d, Text.Quoted.hex 4 n = [a, b, c, d] ∧ hexFour? a b c d = some n := by
  refine ⟨_, _, _, _, hex_four h, ?_⟩
  unfold hexFour?
  rw [hexDigit?_digitChar (by omega), hexDigit?_digitChar (by omega),
    hexDigit?_digitChar (by omega), hexDigit?_digitChar (by omega)]
  simp only [Option.some.injEq]
  omega

theorem length_hex {n : Nat} (h : n < 0x10000) : (Text.Quoted.hex 4 n).length = 4 := by
  rw [hex_four h]
  rfl

/-! ### Strings -/

theorem stringBody_skip (opening : Nat) (front rest : List Char) :
    stringBody opening front.length (front ++ rest) = stringBody opening 0 rest := by
  induction front with
  | nil => rfl
  | cons c front ih =>
      rw [List.length_cons, List.cons_append, stringBody]
      exact ih

/-- A spelling that is taken for a character is passed over as a whole. -/
theorem stringBody_of_spelled {opening : Nat} {first : Char} {p : CodePoint}
    {more rest : List Char} (hfirst : first ≠ '"')
    (h : spelled opening first (more ++ rest) = .ok (p, more.length)) :
    stringBody opening 0 (first :: more ++ rest) = push p (stringBody opening 0 rest) := by
  rw [List.cons_append, stringBody, if_neg hfirst, h]
  dsimp only
  rw [stringBody_skip]

theorem simpleEscape?_of_escapeLetter? {c letter : Char} (h : escapeLetter? c = some letter) :
    letter ≠ 'u' ∧ simpleEscape? letter = some c := by
  unfold escapeLetter? at h
  split at h <;> cases h <;> exact ⟨by decide, rfl⟩

theorem spelled_letter {opening : Nat} {c letter : Char} (h : escapeLetter? c = some letter)
    (rest : List Char) : spelled opening '\\' (letter :: rest) = .ok (.char c, 1) := by
  obtain ⟨hletter, hsimple⟩ := simpleEscape?_of_escapeLetter? h
  unfold spelled
  rw [if_pos rfl]
  split
  · next heq => cases heq
  · next heq => exact absurd (List.cons.inj heq).1 hletter
  · next l rest' _ heq =>
      obtain ⟨rfl, -⟩ := List.cons.inj heq
      rw [hsimple]

theorem spelled_self {opening : Nat} {c : Char} (h : escapeLetter? c = none) (hc : ' ' ≤ c)
    (rest : List Char) : spelled opening c rest = .ok (.char c, 0) := by
  have hslash : c ≠ '\\' := by
    rintro rfl
    cases h
  have hspace : 0x20 ≤ c.toNat := hc
  unfold spelled
  rw [if_neg hslash, if_neg (by omega)]

theorem lt_of_isHighSurrogate {n : Nat} (h : isHighSurrogate n = true) : n < 0x10000 := by
  simp only [isHighSurrogate, Bool.and_eq_true, decide_eq_true_eq] at h
  omega

theorem lt_of_isLowSurrogate {n : Nat} (h : isLowSurrogate n = true) : n < 0x10000 := by
  simp only [isLowSurrogate, Bool.and_eq_true, decide_eq_true_eq] at h
  omega

/-- A unit outside a pair is read from its number, if anything follows. -/
theorem unicodeEscape_single {n : Nat} {next : Char} {rest : List Char} (hn : n < 0x10000)
    (h : ¬(0xD800 ≤ n ∧ n ≤ 0xDFFF)) :
    unicodeEscape (Text.Quoted.hex 4 n ++ next :: rest) = .ok (.char (Char.ofNat n), 4) := by
  obtain ⟨a, b, c, d, hhex, hfour⟩ := hexFour?_hex hn
  have hhigh : isHighSurrogate n = false := by
    simp only [isHighSurrogate, Bool.and_eq_false_iff, decide_eq_false_iff_not]
    omega
  rw [hhex]
  simp only [List.cons_append, List.nil_append, unicodeEscape, hfour, hhigh, unpaired, dif_neg h]

/-- The two units of a pair are read together. -/
theorem unicodeEscape_pair {high low : Nat} {next : Char} {rest : List Char}
    (hhigh : isHighSurrogate high = true) (hlow : isLowSurrogate low = true) :
    unicodeEscape (Text.Quoted.hex 4 high ++
        ('\\' :: 'u' :: Text.Quoted.hex 4 low ++ next :: rest)) =
      .ok (.char (joinSurrogates high low), 10) := by
  obtain ⟨a, b, c, d, hhex, hfour⟩ := hexFour?_hex (lt_of_isHighSurrogate hhigh)
  obtain ⟨a', b', c', d', hhex', hfour'⟩ := hexFour?_hex (lt_of_isLowSurrogate hlow)
  rw [hhex, hhex']
  simp only [List.cons_append, List.nil_append, unicodeEscape, hfour, hhigh, hfour', hlow, if_true]

theorem spelled_unicode {opening n : Nat} {p : CodePoint} {rest : List Char}
    (h : unicodeEscape rest = .ok (p, n)) :
    spelled opening '\\' ('u' :: rest) = .ok (p, n + 1) := by
  unfold spelled
  simp only [if_true, h]

/-- The numbers of characters leave out the halves of pairs. -/
theorem toNat_range (c : Char) : c.toNat < 0xD800 ∨ 0xDFFF < c.toNat ∧ c.toNat < 0x110000 :=
  c.valid

/-- A character beyond the first plane is a pair of units that make it up. -/
theorem units_pair {c : Char} (h : 0x10000 ≤ c.toNat) :
    ∃ high low, units c = [high, low] ∧ isHighSurrogate high = true ∧
      isLowSurrogate low = true ∧ joinSurrogates high low = c := by
  have hrange := toNat_range c
  refine ⟨0xD800 + (c.toNat - 0x10000) / 0x400, 0xDC00 + (c.toNat - 0x10000) % 0x400,
    ?_, ?_, ?_, ?_⟩
  · exact if_neg (by omega)
  · simp only [isHighSurrogate, Bool.and_eq_true, decide_eq_true_eq]
    omega
  · simp only [isLowSurrogate, Bool.and_eq_true, decide_eq_true_eq]
    omega
  · unfold joinSurrogates
    rw [show 0x10000 + (0xD800 + (c.toNat - 0x10000) / 0x400 - 0xD800) * 1024 +
      (0xDC00 + (c.toNat - 0x10000) % 0x400 - 0xDC00) = c.toNat by omega]
    exact Char.ofNat_toNat c

/-- A character is read from the numbers of its units. -/
theorem stringBody_units (opening : Nat) (c next : Char) (rest : List Char) :
    stringBody opening 0
        (((units c).flatMap fun u => '\\' :: 'u' :: Text.Quoted.hex 4 u) ++ next :: rest) =
      push (.char c) (stringBody opening 0 (next :: rest)) := by
  by_cases hplane : c.toNat < 0x10000
  · have hunits : units c = [c.toNat] := if_pos hplane
    have hrange := toNat_range c
    have hread := @unicodeEscape_single _ next rest hplane (by omega)
    rw [Char.ofNat_toNat] at hread
    rw [hunits, List.flatMap_singleton]
    apply stringBody_of_spelled (by decide)
    rw [List.length_cons, length_hex hplane]
    exact spelled_unicode hread
  · obtain ⟨high, low, hunits, hhigh, hlow, hjoin⟩ := units_pair (Nat.le_of_not_lt hplane)
    have hread := @unicodeEscape_pair high low next rest hhigh hlow
    rw [hjoin] at hread
    rw [hunits, List.flatMap_cons, List.flatMap_singleton, List.cons_append]
    apply stringBody_of_spelled (by decide)
    rw [List.length_append, List.length_cons, List.length_cons, List.length_cons,
      length_hex (lt_of_isHighSurrogate hhigh), length_hex (lt_of_isLowSurrogate hlow),
      List.append_assoc, List.cons_append]
    exact spelled_unicode hread

/-- A character is read from its spelling, in whichever way it is spelled. -/
theorem stringBody_spell (opening : Nat) (c next : Char) (rest : List Char) :
    stringBody opening 0 (spell c ++ next :: rest) =
      push (.char c) (stringBody opening 0 (next :: rest)) := by
  unfold spell
  split
  · next letter hletter =>
      exact stringBody_of_spelled (by decide) (spelled_letter hletter (next :: rest))
  · next hnone =>
      by_cases hshown : ' ' ≤ c ∧ c ≤ '~'
      · rw [if_pos hshown]
        have hquote : c ≠ '"' := by
          rintro rfl
          cases hnone
        exact stringBody_of_spelled hquote (spelled_self hnone hshown.1 (next :: rest))
      · rw [if_neg hshown]
        exact stringBody_units opening c next rest

/-- A string is read as it was written. -/
theorem stringBody_flatMap_spell (opening : Nat) (cs rest : List Char) :
    stringBody opening 0 (cs.flatMap spell ++ '"' :: rest) = .ok (cs.map .char, rest) := by
  induction cs with
  | nil => rfl
  | cons c cs ih =>
      -- an escape is read only where a character follows it; the closing quote always does
      obtain ⟨next, more, hmore⟩ : ∃ next more, cs.flatMap spell ++ '"' :: rest = next :: more :=
        List.exists_cons_of_ne_nil (by simp)
      rw [List.flatMap_cons, List.append_assoc, hmore, stringBody_spell, ← hmore, ih]
      rfl

/-- Characters alone denote a text. -/
theorem ofPoints_map_char (cs : List Char) :
    Literal.ofPoints (cs.map .char) = .text (String.ofList cs) := by
  have hwhole : ¬((cs.map CodePoint.char).any (·.char?.isNone) = true) := by
    simp [CodePoint.char?]
  have hchars : (cs.map CodePoint.char).filterMap CodePoint.char? = cs := by
    rw [List.filterMap_map]
    exact List.filterMap_some
  rw [Literal.ofPoints, dif_neg hwhole, hchars]

theorem stringText_append (text : String) (rest : List Char) :
    stringText text ++ rest = '"' :: (text.toList.flatMap spell ++ '"' :: rest) := by
  simp [stringText]

/-! ### Blanks -/

theorem skipSpace_newLine (margin : Nat) (text : List Char) :
    skipSpace (newLine margin ++ text) = skipSpace text := by
  apply List.dropWhile_append_of_pos
  intro c hc
  obtain rfl | hmem := List.mem_cons.mp hc
  · rfl
  · rw [List.eq_of_mem_replicate hmem]
    rfl

theorem skipSpace_cons {c : Char} (hc : isSpace c = false) (rest : List Char) :
    skipSpace (c :: rest) = c :: rest :=
  List.dropWhile_cons_of_neg (by simp [hc])

theorem skipSpace_colon (rest : List Char) : skipSpace (':' :: rest) = ':' :: rest :=
  skipSpace_cons rfl rest

theorem skipSpace_space (rest : List Char) : skipSpace (' ' :: rest) = skipSpace rest :=
  rfl

theorem endsNumber_nil : EndsNumber [] := by
  intro c hc
  cases hc

theorem endsNumber_newLine (margin : Nat) (rest : List Char) :
    EndsNumber (newLine margin ++ rest) := by
  intro c hc
  obtain rfl : '\n' = c := by simpa [newLine] using hc
  decide

theorem endsNumber_comma (rest : List Char) : EndsNumber (',' :: rest) := by
  intro c hc
  obtain rfl : ',' = c := by simpa using hc
  decide

/-! ### One step of the reader -/

variable {room left margin : Nat} {text more rest : List Char} {item : Json}

/-- A value begins neither with a blank, nor with the end of a list, nor with a byte order mark. -/
theorem valueAt_head {r : Json × List Char} (h : valueAt room text = .ok r) :
    ∃ c rest, text = c :: rest ∧ isSpace c = false ∧ c ≠ ']' ∧ c ≠ '\uFEFF' := by
  cases text with
  | nil =>
      rw [valueAt_nil] at h
      cases h
  | cons c rest =>
      refine ⟨c, rest, rfl, ?_, ?_, ?_⟩
      · rw [Bool.eq_false_iff]
        intro hspace
        simp only [isSpace, Bool.or_eq_true, beq_iff_eq] at hspace
        obtain ((rfl | rfl) | rfl) | rfl := hspace <;> cases room <;> cases h
      · rintro rfl
        cases room <;> cases h
      · rintro rfl
        cases room <;> cases h

theorem skipSpace_of_valueAt {r : Json × List Char} (h : valueAt room text = .ok r) :
    skipSpace text = text := by
  obtain ⟨c, rest, rfl, hc, -⟩ := valueAt_head h
  exact skipSpace_cons hc rest

theorem valueUsing_of_scalar {list object : List Char → Reading Json} {r : Json × List Char}
    (h : scalar text = .ok r) : valueUsing list object text = .ok r := by
  unfold valueUsing
  split
  · cases h
  · cases h
  · cases h
  · exact h

theorem valueAt_of_scalar {r : Json × List Char} (h : scalar text = .ok r) :
    valueAt room text = .ok r := by
  cases room with
  | zero => exact valueUsing_of_scalar h
  | succ room => exact valueUsing_of_scalar h

theorem valueAt_string (text : String) (rest : List Char) :
    valueAt room (stringText text ++ rest) = .ok (.str text, rest) := by
  have hread : ∀ list object, valueUsing list object (stringText text ++ rest) =
      .ok (.str text, rest) := by
    intro list object
    rw [stringText_append]
    simp only [valueUsing, stringBody_flatMap_spell, ofPoints_map_char, String.ofList_toList,
      Literal.value]
  cases room with
  | zero => exact hread _ _
  | succ room => exact hread _ _

section

variable {value : List Char → Reading Json}

/-- A bracket after an item ends the list. -/
theorem itemsUsing_close {found : List Json} (hvalue : value text = .ok (item, more))
    (hmore : skipSpace more = ']' :: rest) :
    itemsUsing value (left + 1) found text = .ok (.arr (item :: found).reverse, rest) := by
  unfold itemsUsing
  simp only [hvalue, hmore]

/-- After a comma the list goes on with its next item. -/
theorem itemsUsing_comma {found : List Json} (hvalue : value text = .ok (item, more))
    (hmore : skipSpace more = ',' :: rest) :
    itemsUsing value (left + 1) found text =
      itemsUsing value left (item :: found) (skipSpace rest) := by
  conv_lhs => unfold itemsUsing
  simp only [hvalue, hmore]

variable {name : String} {v : Json} {found : List (Literal × Json)}

theorem writeMember_append (margin : Nat) (name : String) (v : Json) (rest : List Char) :
    writeMember margin (.text name, v) ++ rest =
      '"' :: (name.toList.flatMap spell ++ '"' :: ':' :: ' ' :: (write margin v ++ rest)) := by
  rw [writeMember, Literal.stringText, List.append_assoc, List.append_assoc, stringText_append]
  rfl

theorem skipSpace_writeMember (margin : Nat) (name : String) (v : Json) (rest : List Char) :
    skipSpace (writeMember margin (.text name, v) ++ rest) =
      writeMember margin (.text name, v) ++ rest := by
  rw [writeMember_append]
  rfl

/-- A brace after a member ends the object. -/
theorem membersUsing_close {after : List Char} (hblank : skipSpace (write margin v ++ rest) =
      write margin v ++ rest) (hvalue : value (write margin v ++ rest) = .ok (v, more))
    (hmore : skipSpace more = '}' :: after) :
    membersUsing value (left + 1) found (writeMember margin (.text name, v) ++ rest) =
      .ok (.obj (put found (.text name) v), after) := by
  rw [writeMember_append]
  unfold membersUsing
  simp only [stringBody_flatMap_spell, ofPoints_map_char, String.ofList_toList, skipSpace_colon,
    skipSpace_space, hblank, hvalue, hmore]

/-- After a comma the object goes on with its next member. -/
theorem membersUsing_comma {after : List Char} (hblank : skipSpace (write margin v ++ rest) =
      write margin v ++ rest) (hvalue : value (write margin v ++ rest) = .ok (v, more))
    (hmore : skipSpace more = ',' :: after) :
    membersUsing value (left + 1) found (writeMember margin (.text name, v) ++ rest) =
      membersUsing value left (put found (.text name) v) (skipSpace after) := by
  rw [writeMember_append]
  conv_lhs => unfold membersUsing
  simp only [stringBody_flatMap_spell, ofPoints_map_char, String.ofList_toList, skipSpace_colon,
    skipSpace_space, hblank, hvalue, hmore]

end

theorem named_cons (m : String × Json) (ms : List (String × Json)) :
    named (m :: ms) = (.text m.1, m.2) :: named ms :=
  rfl

theorem length_named (members : List (String × Json)) :
    (named members).length = members.length :=
  List.length_map _

theorem put_of_notMem {name : Literal} {found : List (Literal × Json)}
    (h : name ∉ found.map Prod.fst) : put found name item = found ++ [(name, item)] := by
  induction found with
  | nil => rfl
  | cons m found ih =>
      obtain ⟨hne, hrest⟩ : name ≠ m.1 ∧ name ∉ found.map Prod.fst := by simpa using h
      rw [put, if_neg (Ne.symm hne), ih hrest, List.cons_append]

/-- A name that comes later in an object is not among those found. -/
theorem notMem_of_nodup {m : String × Json} {ms : List (String × Json)}
    {found : List (Literal × Json)} (h : ((found ++ named (m :: ms)).map Prod.fst).Nodup) :
    .text m.1 ∉ found.map Prod.fst := by
  rw [List.map_append, List.nodup_append] at h
  intro hmem
  exact h.2.2 _ hmem (.text m.1) (by simp [named_cons]) rfl

/-! ### Values -/

/-- The values that have a text of their own and that there is room for: no number is too long to
be read, all strings are texts, and no object has two members of one name. -/
inductive Writable : (room : Nat) → Json → Prop where
  | null {room : Nat} : Writable room .null
  | bool {room : Nat} (b : Bool) : Writable room (.bool b)
  | int {room : Nat} {n : Int} (h : n.natAbs < 10 ^ maxDigits) : Writable room (.int n)
  | double {room : Nat} {x : Double} (h : x.Proper) : Writable room (.double x)
  | str {room : Nat} (s : String) : Writable room (.str s)
  | arr {room : Nat} {items : List Json} (h : ∀ item ∈ items, Writable room item) :
    Writable (room + 1) (.arr items)
  | obj {room : Nat} {members : List (String × Json)} (hnames : (members.map Prod.fst).Nodup)
    (h : ∀ m ∈ members, Writable room m.2) : Writable (room + 1) (.obj (named members))

/-- The value is read from its text, whatever follows it. -/
def ReadsBack (value : List Char → Reading Json) (v : Json) : Prop :=
  ∀ (margin : Nat) (rest : List Char), EndsNumber rest →
    value (write margin v ++ rest) = .ok (v, rest) ∧
      skipSpace (write margin v ++ rest) = write margin v ++ rest

theorem endsNumber_writeItems (margin outer : Nat) (items : List Json) (rest : List Char) :
    EndsNumber (writeItems margin items ++ (newLine outer ++ rest)) := by
  cases items with
  | nil =>
      rw [writeItems]
      exact endsNumber_newLine outer rest
  | cons item items =>
      rw [writeItems]
      exact endsNumber_comma _

theorem endsNumber_writeMembers (margin outer : Nat) (ms : List (Literal × Json))
    (rest : List Char) : EndsNumber (writeMembers margin ms ++ (newLine outer ++ rest)) := by
  cases ms with
  | nil =>
      rw [writeMembers]
      exact endsNumber_newLine outer rest
  | cons m ms =>
      rw [writeMembers]
      exact endsNumber_comma _

theorem length_le_writeItems (margin : Nat) (items : List Json) :
    items.length ≤ (writeItems margin items).length := by
  induction items with
  | nil => exact Nat.zero_le _
  | cons item items ih =>
      simp only [writeItems, List.cons_append, List.length_cons, List.length_append]
      omega

theorem length_le_writeMembers (margin : Nat) (ms : List (Literal × Json)) :
    ms.length ≤ (writeMembers margin ms).length := by
  induction ms with
  | nil => exact Nat.zero_le _
  | cons m ms ih =>
      simp only [writeMembers, List.cons_append, List.length_cons, List.length_append]
      omega

section

variable {value : List Char → Reading Json}

/-- The items of a list are read up to its end on a line at the outer margin. -/
theorem itemsUsing_write (margin outer : Nat) {items found : List Json}
    (h : ∀ i ∈ item :: items, ReadsBack value i) (hleft : items.length ≤ left)
    (rest : List Char) :
    itemsUsing value (left + 1) found
        (write margin item ++ (writeItems margin items ++ (newLine outer ++ ']' :: rest))) =
      .ok (.arr (found.reverse ++ item :: items), rest) := by
  obtain ⟨hvalue, -⟩ := h item List.mem_cons_self margin _
    (endsNumber_writeItems margin outer items (']' :: rest))
  induction items generalizing item found left with
  | nil =>
      rw [writeItems, List.nil_append] at hvalue ⊢
      rw [itemsUsing_close hvalue (by rw [skipSpace_newLine, skipSpace_cons rfl]),
        List.reverse_cons]
  | cons next items ih =>
      obtain ⟨left, rfl⟩ := Nat.exists_eq_add_of_le' hleft
      have hothers : ∀ i ∈ next :: items, ReadsBack value i :=
        fun i hi => h i (List.mem_cons_of_mem item hi)
      obtain ⟨hnext, hblank⟩ := hothers next List.mem_cons_self margin _
        (endsNumber_writeItems margin outer items (']' :: rest))
      rw [writeItems] at hvalue ⊢
      simp only [List.cons_append, List.append_assoc] at hvalue ⊢
      rw [itemsUsing_comma hvalue (skipSpace_cons rfl _), skipSpace_newLine, hblank]
      refine (ih hothers ?_ hnext).trans ?_
      · exact Nat.le_add_left _ _
      · simp

/-- The members of an object are read up to its end on a line at the outer margin. -/
theorem membersUsing_write (margin outer : Nat) {m : String × Json} {ms : List (String × Json)}
    {found : List (Literal × Json)} (h : ∀ k ∈ m :: ms, ReadsBack value k.2)
    (hnames : ((found ++ named (m :: ms)).map Prod.fst).Nodup) (hleft : ms.length ≤ left)
    (rest : List Char) :
    membersUsing value (left + 1) found (writeMember margin (.text m.1, m.2) ++
        (writeMembers margin (named ms) ++ (newLine outer ++ '}' :: rest))) =
      .ok (.obj (found ++ named (m :: ms)), rest) := by
  obtain ⟨hvalue, hblank⟩ := h m List.mem_cons_self margin _
    (endsNumber_writeMembers margin outer (named ms) ('}' :: rest))
  induction ms generalizing m found left with
  | nil =>
      rw [named, List.map_nil, writeMembers, List.nil_append] at hvalue hblank ⊢
      rw [membersUsing_close hblank hvalue (by rw [skipSpace_newLine, skipSpace_cons rfl]),
        put_of_notMem (notMem_of_nodup hnames)]
      rfl
  | cons next ms ih =>
      obtain ⟨left, rfl⟩ := Nat.exists_eq_add_of_le' hleft
      have hothers : ∀ k ∈ next :: ms, ReadsBack value k.2 :=
        fun k hk => h k (List.mem_cons_of_mem m hk)
      obtain ⟨hnext, hblank'⟩ := hothers next List.mem_cons_self margin _
        (endsNumber_writeMembers margin outer (named ms) ('}' :: rest))
      rw [named_cons, writeMembers] at hvalue hblank ⊢
      simp only [List.cons_append, List.append_assoc] at hvalue hblank ⊢
      rw [membersUsing_comma hblank hvalue (skipSpace_cons rfl _), skipSpace_newLine,
        skipSpace_writeMember, put_of_notMem (notMem_of_nodup hnames)]
      rw [named_cons, List.append_cons] at hnames
      refine (ih hothers hnames ?_ hnext hblank').trans ?_
      · exact Nat.le_add_left _ _
      · simp [named_cons]

end

/-- A list goes on with its items unless it ends at once. -/
theorem listUsing_of_ne {value : List Char → Reading Json} {c : Char} (hc : c ≠ ']')
    (rest : List Char) :
    listUsing value (c :: rest) = itemsUsing value (rest.length + 1) [] (c :: rest) := by
  unfold listUsing
  split
  · next heq => exact absurd (List.cons.inj heq).1 hc
  · rfl

/-- A list is read from its text if its items are. -/
theorem valueAt_list {items : List Json} (h : ∀ i ∈ items, ReadsBack (valueAt room) i)
    (margin : Nat) (rest : List Char) :
    valueAt (room + 1) (write margin (.arr items) ++ rest) = .ok (.arr items, rest) := by
  cases items with
  | nil =>
      rw [write]
      rfl
  | cons item items =>
      obtain ⟨hvalue, hblank⟩ := h item List.mem_cons_self (margin + indent) _
        (endsNumber_writeItems (margin + indent) margin items (']' :: rest))
      obtain ⟨c, after, htext, -, hc, -⟩ := valueAt_head hvalue
      have hlength : items.length ≤ after.length := by
        have hitems := length_le_writeItems (margin + indent) items
        have htotal := congrArg List.length htext
        simp only [List.length_append, List.length_cons] at htotal
        omega
      have hread := @itemsUsing_write _ _ _ (margin + indent) margin items [] h hlength rest
      rw [write]
      simp only [List.cons_append, List.nil_append, List.append_assoc]
      show listUsing (valueAt room) (skipSpace _) = _
      rw [skipSpace_newLine, hblank, htext, listUsing_of_ne hc, ← htext]
      exact hread

/-- An object goes on with its members unless it ends at once. -/
theorem objectUsing_of_ne {value : List Char → Reading Json} {c : Char} (hc : c ≠ '}')
    (rest : List Char) :
    objectUsing value (c :: rest) = membersUsing value (rest.length + 1) [] (c :: rest) := by
  unfold objectUsing
  split
  · next heq => exact absurd (List.cons.inj heq).1 hc
  · rfl

theorem nodup_named {members : List (String × Json)} (h : (members.map Prod.fst).Nodup) :
    ((named members).map Prod.fst).Nodup := by
  have hnames : (named members).map Prod.fst = (members.map Prod.fst).map Literal.text := by
    simp [named]
  rw [hnames]
  exact h.map fun _ _ => Literal.text.inj

/-- An object is read from its text if the values of its members are. -/
theorem valueAt_object {members : List (String × Json)}
    (hnames : (members.map Prod.fst).Nodup) (h : ∀ m ∈ members, ReadsBack (valueAt room) m.2)
    (margin : Nat) (rest : List Char) :
    valueAt (room + 1) (write margin (.obj (named members)) ++ rest) =
      .ok (.obj (named members), rest) := by
  cases members with
  | nil =>
      rw [named, List.map_nil, write]
      rfl
  | cons m ms =>
      have hmembers := length_le_writeMembers (margin + indent) (named ms)
      rw [length_named] at hmembers
      have hread := fun left => @membersUsing_write left (valueAt room) (margin + indent) margin m
        ms [] h (nodup_named hnames)
      rw [named_cons, write]
      simp only [List.cons_append, List.nil_append, List.append_assoc]
      show objectUsing (valueAt room) (skipSpace _) = _
      rw [skipSpace_newLine, skipSpace_writeMember, writeMember_append,
        objectUsing_of_ne (by decide), ← writeMember_append]
      refine hread _ ?_ rest
      simp only [List.length_append, List.length_cons]
      omega

theorem readsBack_valueAt {v : Json} (h : ∀ (margin : Nat) (rest : List Char), EndsNumber rest →
    valueAt room (write margin v ++ rest) = .ok (v, rest)) : ReadsBack (valueAt room) v :=
  fun margin rest hrest => ⟨h margin rest hrest, skipSpace_of_valueAt (h margin rest hrest)⟩

/-- A value is read from its text, whatever follows it that could not go on with a number. -/
theorem valueAt_write {v : Json} (hw : Writable room v) (margin : Nat) (rest : List Char)
    (hrest : EndsNumber rest) : valueAt room (write margin v ++ rest) = .ok (v, rest) := by
  induction hw generalizing margin rest with
  | null =>
      rw [write]
      exact valueAt_of_scalar rfl
  | bool b =>
      rw [write]
      cases b with
      | true => exact valueAt_of_scalar rfl
      | false => exact valueAt_of_scalar rfl
  | int hn =>
      rw [write]
      exact valueAt_of_scalar (scalar_toString hn hrest)
  | double hx =>
      rw [write]
      exact valueAt_of_scalar (scalar_numberText hx hrest)
  | str s =>
      rw [write]
      exact valueAt_string s rest
  | arr _ ih => exact valueAt_list (fun i hi => readsBack_valueAt (ih i hi)) margin rest
  | obj hnames _ ih =>
      exact valueAt_object hnames (fun m hm => readsBack_valueAt (ih m hm)) margin rest

/-- A document is read as it was written. -/
theorem document_write {v : Json} (hw : Writable room v) : document room (write 0 v) = .ok v := by
  have hread := valueAt_write hw 0 [] endsNumber_nil
  rw [List.append_nil] at hread
  obtain ⟨c, rest, htext, -, -, hmark⟩ := valueAt_head hread
  unfold document
  split
  · next heq =>
      -- a byte order mark begins no value
      rw [heq] at htext
      exact absurd (List.cons.inj htext).1.symm hmark
  · rw [skipSpace_of_valueAt hread, hread]
    rfl

/-- Rendering is undone by parsing. -/
theorem parse_render {v : Json} (hw : Writable room v) : parse room (render v) = .ok v := by
  unfold parse render
  rw [String.toList_ofList, document_write hw]

end Tighten.Json
