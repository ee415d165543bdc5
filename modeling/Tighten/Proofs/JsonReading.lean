import Mathlib.Data.List.Infix
import Mathlib.Data.List.TakeWhile
import Tighten.Json.Reader

/-
What reading JSON can run into.

Each part of the reader goes on where the one before it stopped, so what is left unread is always an
end of the text, and a shorter one.  A whole number is refused as too long only where its digits
stand in the text, one after the other.  There is no room for a bracket only where so many others
are open, and which are open can be seen by a look at the brackets that stand outside strings.
`Within` says all of this of a reading, and it is what has to be known about one part to say it of
the next.

As every item of a list is shorter than what it is read from, the length of a text is more than
enough to count the items in it.
-/
namespace Tighten.Json

/-- As many digits in a row as no number may have stand in the text. -/
def HasOverlong (text : List Char) (n : Nat) : Prop :=
  maxDigits < n ∧ ∃ digits, digits <:+: text ∧ (∀ c ∈ digits, c.isDigit = true) ∧ digits.length = n

theorem HasOverlong.of_infix {text whole : List Char} {n : Nat} (h : HasOverlong text n)
    (hstretch : text <:+: whole) : HasOverlong whole n := by
  obtain ⟨hn, digits, hdigits, hall, hlength⟩ := h
  exact ⟨hn, digits, hdigits.trans hstretch, hall, hlength⟩

theorem not_hasOverlong_of_length {text : List Char} {n : Nat} (h : text.length ≤ maxDigits) :
    ¬HasOverlong text n := by
  rintro ⟨hn, digits, hstretch, -, hlength⟩
  have hle := hstretch.length_le
  omega

/-! ### Open brackets -/

/-- Where a look through a text is: outside strings, in one, or after a backslash in one. -/
inductive Place where
  | outside
  | inside
  | escaped
deriving DecidableEq

/-- The place after a character. -/
def Place.next : Place → Char → Place
  | .outside, c => if c = '"' then .inside else .outside
  | .inside, c => if c = '"' then .outside else if c = '\\' then .escaped else .inside
  | .escaped, _ => .inside

/-- How many brackets are open after a character; those in strings do not count. -/
def Place.level : Place → Nat → Char → Nat
  | .outside, level, c =>
    if c = '[' ∨ c = '{' then level + 1 else if c = ']' ∨ c = '}' then level - 1 else level
  | _, level, _ => level

/-- The most brackets that are open at once in the rest of a text. -/
def depthFrom : Place → (level : Nat) → List Char → Nat
  | _, level, [] => level
  | place, level, c :: rest => max level (depthFrom (place.next c) (place.level level c) rest)

/-- The most brackets that are open at once in a text. -/
def depth (text : List Char) : Nat := depthFrom .outside 0 text

variable {text rest : List Char} {c : Char} {level : Nat}

theorem le_depthFrom (place : Place) (level : Nat) (text : List Char) :
    level ≤ depthFrom place level text := by
  cases text with
  | nil => exact Nat.le_refl level
  | cons c rest => exact Nat.le_max_left _ _

theorem depthFrom_next_le (place : Place) (level : Nat) (c : Char) (rest : List Char) :
    depthFrom (place.next c) (place.level level c) rest ≤ depthFrom place level (c :: rest) :=
  Nat.le_max_right _ _

/-- Whether a character neither begins a string nor is a bracket. -/
def isOrdinary (c : Char) : Bool :=
  c ≠ '"' && c ≠ '[' && c ≠ '{' && c ≠ ']' && c ≠ '}'

theorem depthFrom_ordinary_le (hc : isOrdinary c = true) (level : Nat) (rest : List Char) :
    depthFrom .outside level rest ≤ depthFrom .outside level (c :: rest) := by
  have hnext := depthFrom_next_le .outside level c rest
  simp only [isOrdinary, Bool.and_eq_true, decide_eq_true_eq] at hc
  obtain ⟨⟨⟨⟨hquote, hopen⟩, hopen'⟩, hclose⟩, hclose'⟩ := hc
  simpa [Place.next, Place.level, hquote, hopen, hopen', hclose, hclose'] using hnext

theorem depthFrom_inside_le (hquote : c ≠ '"') (hslash : c ≠ '\\') (level : Nat)
    (rest : List Char) : depthFrom .inside level rest ≤ depthFrom .inside level (c :: rest) := by
  have hnext := depthFrom_next_le .inside level c rest
  simpa [Place.next, Place.level, hquote, hslash] using hnext

theorem depthFrom_escape_le (c : Char) (level : Nat) (rest : List Char) :
    depthFrom .inside level rest ≤ depthFrom .inside level ('\\' :: c :: rest) :=
  Nat.le_trans (depthFrom_next_le .escaped level c rest) (depthFrom_next_le .inside level '\\' _)

/-- The bracket before a text is open in it. -/
theorem depthFrom_open_le (hc : c = '[' ∨ c = '{') (level : Nat) (rest : List Char) :
    depthFrom .outside (level + 1) rest ≤ depthFrom .outside level (c :: rest) := by
  have hnext := depthFrom_next_le .outside level c rest
  obtain rfl | rfl := hc <;> exact hnext

theorem depthFrom_close_le (hc : c = ']' ∨ c = '}') (level : Nat) (rest : List Char) :
    depthFrom .outside level rest ≤ depthFrom .outside (level + 1) (c :: rest) := by
  have hnext := depthFrom_next_le .outside (level + 1) c rest
  obtain rfl | rfl := hc <;> exact hnext

/-! ### What is left of a text -/

/-- After brackets were closed, an end of the text is left that holds no deeper ones. -/
structure Leaves (closed : Nat) (text rest : List Char) : Prop where
  suffix : rest <:+ text
  depth : ∀ level, depthFrom .outside level rest ≤ depthFrom .outside (level + closed) text

namespace Leaves

variable {closed more : Nat} {middle front : List Char}

theorem refl (text : List Char) : Leaves 0 text text :=
  ⟨List.suffix_refl text, fun _ => Nat.le_refl _⟩

theorem trans (h : Leaves closed text middle) (h' : Leaves more middle rest) :
    Leaves (more + closed) text rest where
  suffix := h'.suffix.trans h.suffix
  depth level := by
    have hle := Nat.le_trans (h'.depth level) (h.depth (level + more))
    rwa [Nat.add_assoc] at hle

theorem ordinary (hc : isOrdinary c = true) (rest : List Char) : Leaves 0 (c :: rest) rest :=
  ⟨List.suffix_cons c rest, fun level => depthFrom_ordinary_le hc level rest⟩

theorem append (h : ∀ c ∈ front, isOrdinary c = true) (rest : List Char) :
    Leaves 0 (front ++ rest) rest := by
  induction front with
  | nil => exact .refl rest
  | cons c front ih =>
      have hfront := ih fun d hd => h d (List.mem_cons_of_mem c hd)
      exact (ordinary (h c List.mem_cons_self) (front ++ rest)).trans hfront

theorem close (hc : c = ']' ∨ c = '}') (rest : List Char) : Leaves 1 (c :: rest) rest :=
  ⟨List.suffix_cons c rest, fun level => depthFrom_close_le hc level rest⟩

theorem length_le (h : Leaves closed text rest) : rest.length ≤ text.length :=
  h.suffix.length_le

end Leaves

theorem isOrdinary_of_isSpace (h : isSpace c = true) : isOrdinary c = true := by
  simp only [isSpace, Bool.or_eq_true, beq_iff_eq] at h
  obtain ((rfl | rfl) | rfl) | rfl := h <;> rfl

theorem isOrdinary_of_isDigit (h : c.isDigit = true) : isOrdinary c = true := by
  have hother : ∀ d : Char, d.isDigit = false → c ≠ d := by
    rintro d hd rfl
    rw [h] at hd
    cases hd
  simp [isOrdinary, hother '"' rfl, hother '[' rfl, hother '{' rfl, hother ']' rfl,
    hother '}' rfl]

theorem skipSpace_leaves (text : List Char) : Leaves 0 text (skipSpace text) := by
  have hblank : ∀ c ∈ text.takeWhile isSpace, isOrdinary c = true :=
    fun c hc => isOrdinary_of_isSpace (List.mem_takeWhile_imp hc)
  have hleaves := Leaves.append hblank (skipSpace text)
  rwa [skipSpace, List.takeWhile_append_dropWhile] at hleaves

/-- An ordinary character after blanks is passed over. -/
theorem leaves_of_skipSpace (h : skipSpace text = c :: rest) (hc : isOrdinary c = true) :
    Leaves 0 text rest := by
  have hblank := skipSpace_leaves text
  rw [h] at hblank
  exact hblank.trans (.ordinary hc rest)

/-- A closing bracket after blanks is passed over. -/
theorem closes_of_skipSpace (h : skipSpace text = c :: rest) (hc : c = ']' ∨ c = '}') :
    Leaves 1 text rest := by
  have hblank := skipSpace_leaves text
  rw [h] at hblank
  exact hblank.trans (.close hc rest)

theorem length_of_skipSpace (h : skipSpace text = c :: rest) : rest.length < text.length := by
  have hle := (skipSpace_leaves text).length_le
  rw [h, List.length_cons] at hle
  exact hle

/-! ### Readings -/

/-- What is left unread is a shorter end of the text after so many brackets were closed, a number
that is too long stands in the text, and brackets that there is no room for are open in it. -/
def Within {α : Type} (room closed : Nat) (text : List Char) : Reading α → Prop
  | .ok (_, rest) => Leaves closed text rest ∧ rest.length < text.length
  | .error (.tooLong n) => HasOverlong text n
  | .error (.tooDeep _) => ∀ level, level + room < depthFrom .outside level text
  | .error (.malformed ..) => True

variable {α β : Type} {room closed : Nat}

theorem Within.mono {r : Reading α} (h : Within room closed rest r) (hleaves : Leaves 0 text rest) :
    Within room closed text r := by
  match r, h with
  | .ok (_, _), h => exact ⟨hleaves.trans h.1, Nat.lt_of_lt_of_le h.2 hleaves.length_le⟩
  | .error (.tooLong _), h => exact h.of_infix hleaves.suffix.isInfix
  | .error (.tooDeep _), h => exact fun level => Nat.lt_of_lt_of_le (h level) (hleaves.depth level)
  | .error (.malformed ..), _ => trivial

/-- An error is passed on as it is, whatever was to be read. -/
theorem Within.error {e : Fault} {closed' : Nat}
    (h : Within room closed text (.error e : Reading α)) :
    Within room closed' text (.error e : Reading β) := by
  cases e with
  | tooLong n => exact h
  | tooDeep inside => exact h
  | malformed complaint unread => trivial

/-- What is read after an opening bracket has one level less to go. -/
theorem Within.bracket {r : Reading α} (h : Within room 1 rest r) (hc : c = '[' ∨ c = '{') :
    Within (room + 1) 0 (c :: rest) r := by
  have hopen := fun level => depthFrom_open_le hc level rest
  match r, h with
  | .ok (_, _), h =>
      refine ⟨⟨h.1.suffix.trans (List.suffix_cons c rest), fun level => ?_⟩, ?_⟩
      · exact Nat.le_trans (h.1.depth level) (hopen level)
      · exact Nat.lt_succ_of_lt h.2
  | .error (.tooLong _), h => exact h.of_infix (List.suffix_cons c rest).isInfix
  | .error (.tooDeep _), h =>
      intro level
      have hlevel := h (level + 1)
      have hle := hopen level
      omega
  | .error (.malformed ..), _ => trivial

/-! ### Strings -/

theorem depthFrom_hexDigit_le {d : Nat} (h : hexDigit? c = some d) (level : Nat)
    (rest : List Char) : depthFrom .inside level rest ≤ depthFrom .inside level (c :: rest) := by
  apply depthFrom_inside_le
  · rintro rfl
    cases h
  · rintro rfl
    cases h

theorem depthFrom_hexFour_le {x y z w : Char} {n : Nat} (h : hexFour? x y z w = some n)
    (level : Nat) (rest : List Char) :
    depthFrom .inside level rest ≤ depthFrom .inside level (x :: y :: z :: w :: rest) := by
  unfold hexFour? at h
  split at h
  · next hx hy hz hw =>
      calc depthFrom .inside level rest
        _ ≤ depthFrom .inside level (w :: rest) := depthFrom_hexDigit_le hw level _
        _ ≤ depthFrom .inside level (z :: w :: rest) := depthFrom_hexDigit_le hz level _
        _ ≤ depthFrom .inside level (y :: z :: w :: rest) := depthFrom_hexDigit_le hy level _
        _ ≤ depthFrom .inside level (x :: y :: z :: w :: rest) := depthFrom_hexDigit_le hx level _
  · cases h

theorem depthFrom_unicodeEscape_le {p : CodePoint} {n : Nat} (h : unicodeEscape text = .ok (p, n))
    (level : Nat) : depthFrom .inside level (text.drop n) ≤ depthFrom .inside level text := by
  unfold unicodeEscape at h
  split at h
  · split at h
    · cases h
    · next hhigh =>
        have hfour := depthFrom_hexFour_le hhigh level
        split at h
        · split at h
          · cases h
          · next hlow =>
              split at h
              · obtain ⟨rfl, rfl⟩ := Prod.mk.inj (Except.ok.inj h)
                refine Nat.le_trans ?_ (hfour _)
                exact Nat.le_trans (depthFrom_hexFour_le hlow level _)
                  (depthFrom_escape_le 'u' level _)
              · obtain ⟨rfl, rfl⟩ := Prod.mk.inj (Except.ok.inj h)
                exact hfour _
        · obtain ⟨rfl, rfl⟩ := Prod.mk.inj (Except.ok.inj h)
          exact hfour _
  · cases h

/-- The spelling of a character stays inside its string. -/
theorem depthFrom_spelled_le {opening n : Nat} {p : CodePoint} (hc : c ≠ '"')
    (h : spelled opening c rest = .ok (p, n)) (level : Nat) :
    depthFrom .inside level (rest.drop n) ≤ depthFrom .inside level (c :: rest) := by
  unfold spelled at h
  split at h
  · next hslash =>
      subst hslash
      split at h
      · cases h
      · split at h
        · next hescape =>
            obtain ⟨rfl, rfl⟩ := Prod.mk.inj (Except.ok.inj h)
            exact Nat.le_trans (depthFrom_unicodeEscape_le hescape level)
              (depthFrom_escape_le 'u' level _)
        · cases h
      · split at h
        · obtain ⟨rfl, rfl⟩ := Prod.mk.inj (Except.ok.inj h)
          exact depthFrom_escape_le _ level _
        · cases h
  · next hslash =>
      split at h
      · cases h
      · obtain ⟨rfl, rfl⟩ := Prod.mk.inj (Except.ok.inj h)
        exact depthFrom_inside_le hc hslash level rest

theorem unicodeEscape_error {e : Fault} (h : unicodeEscape text = .error e) :
    ∃ complaint unread, e = .malformed complaint unread := by
  unfold unicodeEscape at h
  split at h
  · split at h
    · exact ⟨_, _, (Except.error.inj h).symm⟩
    · split at h
      · split at h
        · exact ⟨_, _, (Except.error.inj h).symm⟩
        · split at h <;> cases h
      · cases h
  · exact ⟨_, _, (Except.error.inj h).symm⟩

theorem spelled_error {opening : Nat} {e : Fault} (h : spelled opening c rest = .error e) :
    ∃ complaint unread, e = .malformed complaint unread := by
  unfold spelled at h
  split at h
  · split at h
    · exact ⟨_, _, (Except.error.inj h).symm⟩
    · split at h
      · cases h
      · next hescape =>
          obtain rfl := Except.error.inj h
          exact unicodeEscape_error hescape
    · split at h
      · cases h
      · exact ⟨_, _, (Except.error.inj h).symm⟩
  · split at h
    · exact ⟨_, _, (Except.error.inj h).symm⟩
    · cases h

/-- What is left of a string is outside it, and what is wrong with one is its spelling. -/
theorem stringBody_cases (opening : Nat) (text : List Char) :
    ∀ skip, (∃ points rest, stringBody opening skip text = .ok (points, rest) ∧
        rest <:+ text ∧ rest.length < text.length ∧
        ∀ level, depthFrom .outside level rest ≤ depthFrom .inside level (text.drop skip)) ∨
      ∃ complaint unread, stringBody opening skip text = .error (.malformed complaint unread) := by
  induction text with
  | nil =>
      intro skip
      unfold stringBody
      exact Or.inr ⟨_, _, rfl⟩
  | cons c text ih =>
      intro skip
      cases skip with
      | succ skip =>
          rw [stringBody]
          obtain ⟨points, rest, hok, hsuffix, hlength, hdepth⟩ | herror := ih skip
          · exact Or.inl ⟨points, rest, hok, hsuffix.trans (List.suffix_cons c text),
              Nat.lt_succ_of_lt hlength, hdepth⟩
          · exact Or.inr herror
      | zero =>
          rw [stringBody]
          by_cases hc : c = '"'
          · subst hc
            rw [if_pos rfl]
            exact Or.inl ⟨[], text, rfl, List.suffix_cons _ text, Nat.lt_succ_self _,
              fun level => depthFrom_next_le .inside level '"' text⟩
          · rw [if_neg hc]
            cases hspelled : spelled opening c text with
            | error e =>
                obtain ⟨complaint, unread, rfl⟩ := spelled_error hspelled
                exact Or.inr ⟨complaint, unread, rfl⟩
            | ok found =>
                obtain ⟨p, n⟩ := found
                obtain ⟨points, rest, hok, hsuffix, hlength, hdepth⟩ |
                  ⟨complaint, unread, herror⟩ := ih n
                · refine Or.inl ⟨p :: points, rest, ?_, hsuffix.trans (List.suffix_cons c text),
                    Nat.lt_succ_of_lt hlength, fun level => ?_⟩
                  · simp only [hok, push]
                  · exact Nat.le_trans (hdepth level) (depthFrom_spelled_le hc hspelled level)
                · refine Or.inr ⟨complaint, unread, ?_⟩
                  simp only [herror, push]

theorem stringBody_within (room opening : Nat) (rest : List Char) :
    Within room 0 ('"' :: rest) (stringBody opening 0 rest) := by
  obtain ⟨points, left, hok, hsuffix, hlength, hdepth⟩ | ⟨complaint, unread, herror⟩ :=
    stringBody_cases opening rest 0
  · rw [hok]
    refine ⟨⟨hsuffix.trans (List.suffix_cons _ rest), fun level => ?_⟩, Nat.lt_succ_of_lt hlength⟩
    exact Nat.le_trans (hdepth level) (depthFrom_next_le .outside level '"' rest)
  · rw [herror]
    trivial

/-! ### Numbers -/

theorem spanDigits_eq {digits : List Char} (h : spanDigits text = (digits, rest)) :
    text = digits ++ rest ∧ ∀ c ∈ digits, c.isDigit = true := by
  unfold spanDigits at h
  rw [List.span_eq_takeWhile_dropWhile, Prod.mk.injEq] at h
  rw [← h.1, ← h.2, List.takeWhile_append_dropWhile]
  refine ⟨rfl, ?_⟩
  intro c hc
  exact List.mem_takeWhile_imp hc

theorem spanDigits_leaves {digits : List Char} (h : spanDigits text = (digits, rest)) :
    Leaves 0 text rest := by
  obtain ⟨rfl, hdigits⟩ := spanDigits_eq h
  exact Leaves.append (fun c hc => isOrdinary_of_isDigit (hdigits c hc)) rest

theorem wholePart_eq {whole : List Char} (h : wholePart text = some (whole, rest)) :
    text = whole ++ rest ∧ (∀ c ∈ whole, c.isDigit = true) ∧ whole ≠ [] := by
  unfold wholePart at h
  split at h
  · next r =>
      obtain ⟨rfl, rfl⟩ := Prod.mk.inj (Option.some.inj h)
      simp
  · next c r _ =>
      split at h
      · next hc =>
          obtain ⟨hsplit, hdigits⟩ := spanDigits_eq (Option.some.inj h)
          refine ⟨hsplit, hdigits, ?_⟩
          rintro rfl
          simp [spanDigits, List.span_eq_takeWhile_dropWhile, hc] at h
      · cases h
  · cases h

theorem fraction_leaves {digits : List Char} (h : fraction text = some (digits, rest)) :
    Leaves 0 text rest := by
  unfold fraction at h
  split at h
  · next c r =>
      split at h
      · exact (Leaves.ordinary rfl (c :: r)).trans (spanDigits_leaves (Option.some.inj h))
      · cases h
  · cases h

theorem exponentDigits_leaves {negative : Bool} {e : Int}
    (h : exponentDigits negative text = some (e, rest)) : Leaves 0 text rest := by
  unfold exponentDigits at h
  split at h
  · cases h
  · next hspan =>
      obtain ⟨-, rfl⟩ := Prod.mk.inj (Option.some.inj h)
      exact spanDigits_leaves hspan

theorem exponent_leaves {e : Int} (h : exponent text = some (e, rest)) : Leaves 0 text rest := by
  unfold exponent at h
  split at h
  · next c r =>
      split at h
      · next hmark =>
          have hc : isOrdinary c = true := by
            obtain rfl | rfl : c = 'e' ∨ c = 'E' := by simpa using hmark
            · rfl
            · rfl
          refine (Leaves.ordinary hc r).trans ?_
          split at h
          · exact (Leaves.ordinary rfl _).trans (exponentDigits_leaves h)
          · exact (Leaves.ordinary rfl _).trans (exponentDigits_leaves h)
          · exact exponentDigits_leaves h
      · cases h
  · cases h

theorem magnitude_within (room : Nat) (negative : Bool) (start text : List Char) :
    Within room 0 text (magnitude negative start text) := by
  unfold magnitude
  cases hwhole : wholePart text with
  | none => trivial
  | some found =>
      obtain ⟨whole, rest⟩ := found
      obtain ⟨rfl, hdigits, hne⟩ := wholePart_eq hwhole
      have hpos := List.length_pos_iff.mpr hne
      -- whatever is read after the whole part, that part is gone
      have hread : ∀ left, Leaves 0 rest left →
          Leaves 0 (whole ++ rest) left ∧ left.length < (whole ++ rest).length := by
        intro left hleft
        have hle := hleft.length_le
        refine ⟨(Leaves.append (fun c hc => isOrdinary_of_isDigit (hdigits c hc)) rest).trans hleft,
          ?_⟩
        rw [List.length_append]
        omega
      cases hfraction : fraction rest with
      | some part =>
          obtain ⟨digits, afterFraction⟩ := part
          have hleft := fraction_leaves hfraction
          cases hexponent : exponent afterFraction with
          | some exp =>
              simp only [hfraction, hexponent]
              exact hread _ (hleft.trans (exponent_leaves hexponent))
          | none =>
              simp only [hfraction, hexponent]
              exact hread _ hleft
      | none =>
          cases hexponent : exponent rest with
          | some exp =>
              simp only [hfraction, hexponent]
              exact hread _ (exponent_leaves hexponent)
          | none =>
              simp only [hfraction, hexponent, Option.isNone_none, Bool.and_self, if_true]
              -- only here, with neither a fraction nor an exponent, the digits are counted
              split
              · next hlong =>
                  exact ⟨hlong, whole, (List.prefix_append whole rest).isInfix, hdigits, rfl⟩
              · exact hread _ (.refl rest)

theorem afterWord?_eq {word : String} (h : afterWord? word text = some rest) :
    text = word.toList ++ rest := by
  unfold afterWord? at h
  split at h
  · next hprefix =>
      obtain ⟨after, rfl⟩ := List.isPrefixOf_iff_prefix.mp hprefix
      rw [← Option.some.inj h, ← String.length_toList, List.drop_left]
  · cases h

theorem scalar_within (room : Nat) (text : List Char) : Within room 0 text (scalar text) := by
  unfold scalar
  dsimp only
  split
  · next found hfound =>
      obtain ⟨⟨word, value⟩, hmem, hword⟩ := List.exists_of_findSome?_eq_some hfound
      obtain ⟨rest, hrest, rfl⟩ := Option.map_eq_some_iff.mp hword
      obtain rfl := afterWord?_eq hrest
      obtain ⟨hordinary, hpos⟩ : word.toList.all isOrdinary = true ∧ 0 < word.toList.length := by
        revert hmem
        simp only [List.mem_cons, Prod.mk.injEq, List.not_mem_nil, or_false]
        rintro (⟨rfl, -⟩ | ⟨rfl, -⟩ | ⟨rfl, -⟩ | ⟨rfl, -⟩ | ⟨rfl, -⟩ | ⟨rfl, -⟩) <;> decide
      have hlength : rest.length < (word.toList ++ rest).length := by
        rw [List.length_append]
        omega
      exact ⟨Leaves.append (List.all_eq_true.mp hordinary) rest, hlength⟩
  · split
    · next rest _ => exact (magnitude_within room true _ rest).mono (.ordinary rfl rest)
    · exact magnitude_within room false text text

/-! ### Values -/

section

variable {value : List Char → Reading Json}

/-- Values are read within the text that they are read from. -/
def StaysWithin (room : Nat) (value : List Char → Reading Json) : Prop :=
  ∀ text, Within room 0 text (value text)

theorem StaysWithin.items (h : StaysWithin room value) :
    ∀ (left : Nat) (found : List Json) (text : List Char),
      Within room 1 text (itemsUsing value left found text) := by
  intro left
  induction left with
  | zero =>
      intro found text
      trivial
  | succ left ih =>
      intro found text
      unfold itemsUsing
      have hvalue := h text
      split
      · next herror =>
          rw [herror] at hvalue
          exact hvalue.error
      · next item after hok =>
          rw [hok] at hvalue
          obtain ⟨hleaves, hlength⟩ := hvalue
          split
          · next beyond hclose =>
              have hshorter := length_of_skipSpace hclose
              exact ⟨hleaves.trans (closes_of_skipSpace hclose (Or.inl rfl)), by omega⟩
          · next more hcomma =>
              have hmore : Leaves 0 after more := leaves_of_skipSpace hcomma rfl
              exact (ih _ _).mono ((hleaves.trans hmore).trans (skipSpace_leaves more))
          · trivial

theorem StaysWithin.members (h : StaysWithin room value) :
    ∀ (left : Nat) (found : List (Literal × Json)) (text : List Char),
      Within room 1 text (membersUsing value left found text) := by
  intro left
  induction left with
  | zero =>
      intro found text
      trivial
  | succ left ih =>
      intro found text
      unfold membersUsing
      split
      · next rest =>
          have hbody := stringBody_within room ('"' :: rest).length rest
          split
          · next herror =>
              rw [herror] at hbody
              exact hbody.error
          · next name after hok =>
              rw [hok] at hbody
              split
              · next beyond hcolon =>
                  refine Within.mono ?_ (hbody.1.trans (leaves_of_skipSpace hcolon rfl))
                  refine Within.mono ?_ (skipSpace_leaves beyond)
                  have hvalue := h (skipSpace beyond)
                  split
                  · next herror =>
                      rw [herror] at hvalue
                      exact hvalue.error
                  · next member past hok' =>
                      rw [hok'] at hvalue
                      obtain ⟨hleaves, hlength⟩ := hvalue
                      dsimp only
                      split
                      · next hclose =>
                          have hshorter := length_of_skipSpace hclose
                          exact ⟨hleaves.trans (closes_of_skipSpace hclose (Or.inr rfl)), by omega⟩
                      · next more hcomma =>
                          have hmore : Leaves 0 past more := leaves_of_skipSpace hcomma rfl
                          exact (ih _ _).mono ((hleaves.trans hmore).trans (skipSpace_leaves more))
                      · trivial
              · trivial
      · trivial

theorem StaysWithin.list (h : StaysWithin room value) (text : List Char) :
    Within room 1 text (listUsing value text) := by
  unfold listUsing
  split
  · exact ⟨.close (Or.inl rfl) _, Nat.lt_succ_self _⟩
  · exact h.items _ _ _

theorem StaysWithin.object (h : StaysWithin room value) (text : List Char) :
    Within room 1 text (objectUsing value text) := by
  unfold objectUsing
  split
  · exact ⟨.close (Or.inr rfl) _, Nat.lt_succ_self _⟩
  · exact h.members _ _ _

end

theorem valueUsing_within {list object : List Char → Reading Json}
    (hlist : ∀ rest, Within room 0 ('[' :: rest) (list (skipSpace rest)))
    (hobject : ∀ rest, Within room 0 ('{' :: rest) (object (skipSpace rest))) :
    StaysWithin room (valueUsing list object) := by
  intro text
  unfold valueUsing
  split
  · next rest =>
      have hbody := stringBody_within room ('"' :: rest).length rest
      split
      · next hok =>
          rw [hok] at hbody
          exact hbody
      · next herror =>
          rw [herror] at hbody
          exact hbody.error
  · exact hobject _
  · exact hlist _
  · exact scalar_within room text

/-- However much room there is, reading goes on within the text it was given. -/
theorem valueAt_within (room : Nat) : StaysWithin room (valueAt room) := by
  induction room with
  | zero =>
      -- a bracket is open as soon as it is there
      refine valueUsing_within ?_ ?_
      · intro rest level
        have hopen := depthFrom_open_le (c := '[') (Or.inl rfl) level rest
        exact Nat.lt_of_lt_of_le (le_depthFrom .outside (level + 1) rest) hopen
      · intro rest level
        have hopen := depthFrom_open_le (c := '{') (Or.inr rfl) level rest
        exact Nat.lt_of_lt_of_le (le_depthFrom .outside (level + 1) rest) hopen
  | succ room ih =>
      refine valueUsing_within ?_ ?_
      · intro rest
        exact ((ih.list _).mono (skipSpace_leaves rest)).bracket (Or.inl rfl)
      · intro rest
        exact ((ih.object _).mono (skipSpace_leaves rest)).bracket (Or.inr rfl)

/-- What is wrong with a document. -/
theorem document_error {e : Fault} (h : document room text = .error e) :
    Within room 0 text (.error e : Reading Json) := by
  unfold document at h
  split at h
  · obtain rfl := Except.error.inj h
    trivial
  · have hvalue := (valueAt_within room (skipSpace text)).mono (skipSpace_leaves text)
    split at h
    · next herror =>
        obtain rfl := Except.error.inj h
        rwa [herror] at hvalue
    · split at h
      · cases h
      · obtain rfl := Except.error.inj h
        trivial

theorem parse_eq_error {text : String} {e : ReadError} (h : parse room text = .error e) :
    ∃ fault, document room text.toList = .error fault ∧ fault.locate text.toList = e := by
  unfold parse at h
  split at h
  · cases h
  · next fault herror => exact ⟨fault, herror, Except.error.inj h⟩

/-- A text is refused for the length of a number only if so many digits stand in it. -/
theorem parse_tooLong {text : String} {n : Nat} (h : parse room text = .error (.tooLong n)) :
    HasOverlong text.toList n := by
  obtain ⟨fault, herror, hlocate⟩ := parse_eq_error h
  cases fault with
  | tooLong digits =>
      obtain rfl : digits = n := by simpa [Fault.locate] using hlocate
      exact document_error herror
  | tooDeep inside => cases hlocate
  | malformed complaint unread => cases hlocate

/-- There is no room for a text only if more brackets are open in it. -/
theorem parse_tooDeep {text : String} {inside : Bracketed}
    (h : parse room text = .error (.tooDeep inside)) : room < depth text.toList := by
  obtain ⟨fault, herror, hlocate⟩ := parse_eq_error h
  cases fault with
  | tooLong digits => cases hlocate
  | tooDeep inside =>
      have hdeep := document_error herror 0
      rwa [Nat.zero_add] at hdeep
  | malformed complaint unread => cases hlocate

/-- Brackets that are only opened need room for all of them. -/
theorem valueAt_replicate (room : Nat) (rest : List Char) :
    valueAt room (List.replicate (room + 1) '[' ++ rest) = .error (.tooDeep .list) := by
  induction room with
  | zero => rfl
  | succ room ih =>
      have hlist : valueAt (room + 1) (List.replicate (room + 2) '[' ++ rest) =
          itemsUsing (valueAt room) (List.replicate (room + 1) '[' ++ rest).length []
            (List.replicate (room + 1) '[' ++ rest) := rfl
      rw [hlist, List.length_append, List.length_replicate, Nat.add_right_comm, itemsUsing, ih]

/-! ### Enough to count with -/

section

variable {value : List Char → Reading Json} {left : Nat}

theorem itemsUsing_succ (hvalue : StaysWithin room value) (hnil : value [] = complain .value [])
    (h : text.length ≤ left) (found : List Json) :
    itemsUsing value (left + 1) found text = itemsUsing value left found text := by
  induction left generalizing text found with
  | zero =>
      obtain rfl := List.length_eq_zero_iff.mp (Nat.le_zero.mp h)
      simp only [itemsUsing, hnil, complain]
  | succ left ih =>
      rw [itemsUsing, itemsUsing]
      have hread := hvalue text
      split
      · rfl
      · next item after hok =>
          rw [hok] at hread
          split
          · rfl
          · next more hcomma =>
              have hshorter := length_of_skipSpace hcomma
              have hblank := (skipSpace_leaves more).length_le
              have hlength := hread.2
              exact ih (by omega) _
          · rfl

theorem membersUsing_succ (hvalue : StaysWithin room value) (h : text.length ≤ left)
    (found : List (Literal × Json)) :
    membersUsing value (left + 1) found text = membersUsing value left found text := by
  induction left generalizing text found with
  | zero =>
      obtain rfl := List.length_eq_zero_iff.mp (Nat.le_zero.mp h)
      rfl
  | succ left ih =>
      conv_lhs => unfold membersUsing
      conv_rhs => unfold membersUsing
      split
      · next rest =>
          have hbody := stringBody_within room ('"' :: rest).length rest
          split
          · rfl
          · next name after hok =>
              rw [hok] at hbody
              split
              · next beyond hcolon =>
                  have hread := hvalue (skipSpace beyond)
                  split
                  · rfl
                  · next member past hok' =>
                      rw [hok'] at hread
                      dsimp only
                      split
                      · rfl
                      · next more hcomma =>
                          have hcolon := length_of_skipSpace hcolon
                          have hcomma := length_of_skipSpace hcomma
                          have hbeyond := (skipSpace_leaves beyond).length_le
                          have hmore := (skipSpace_leaves more).length_le
                          have hname := hbody.2
                          have hmember := hread.2
                          exact ih (by omega) _
                      · rfl
              · rfl
      · rfl

theorem itemsUsing_enough (hvalue : StaysWithin room value)
    (hnil : value [] = complain .value []) (h : text.length ≤ left) (found : List Json) :
    itemsUsing value left found text = itemsUsing value text.length found text := by
  induction left, h using Nat.le_induction with
  | base => rfl
  | succ left h ih => rw [itemsUsing_succ hvalue hnil h, ih]

theorem membersUsing_enough (hvalue : StaysWithin room value) (h : text.length ≤ left)
    (found : List (Literal × Json)) :
    membersUsing value left found text = membersUsing value text.length found text := by
  induction left, h using Nat.le_induction with
  | base => rfl
  | succ left h ih => rw [membersUsing_succ hvalue h, ih]

end

theorem valueAt_nil (room : Nat) : valueAt room [] = complain .value [] := by
  cases room <;> rfl

/-- The items of a list are read alike, however many more of them there might be than characters. -/
theorem itemsUsing_valueAt (room : Nat) {left : Nat} (h : text.length ≤ left)
    (found : List Json) :
    itemsUsing (valueAt room) left found text = itemsUsing (valueAt room) text.length found text :=
  itemsUsing_enough (valueAt_within room) (valueAt_nil room) h found

/-- And so are the members of an object. -/
theorem membersUsing_valueAt (room : Nat) {left : Nat} (h : text.length ≤ left)
    (found : List (Literal × Json)) :
    membersUsing (valueAt room) left found text =
      membersUsing (valueAt room) text.length found text :=
  membersUsing_enough (valueAt_within room) h found

end Tighten.Json
