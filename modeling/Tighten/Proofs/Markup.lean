import Mathlib.Data.List.TakeWhile
import Tighten.Console.Markup
import Tighten.Proofs.Answers

/-
What markup leaves of a text.

Printing takes things out of a text and hardly ever puts anything in: a tag prints nothing, half of
the backslashes before a tag go, a backslash before a bracket goes, some control characters go, and
an emoji is no longer than its code.  None of these are blanks alone, so what is printed never has
more ink in it than what was given, and less as soon as anything is taken out.  A text comes out as
it went in exactly if there is nothing in it to take out or to replace: it is `Unmarked`.  That is
known from the amount of ink already, so it does not matter what becomes of the blanks later.

Printing fails at a closing tag only.
-/
namespace Tighten.Console

/-! ### Ink -/

/-- Whether a character is neither a space nor a tab. -/
def isInk (c : Char) : Bool := c ≠ ' ' && c ≠ '\t'

/-- The characters of a text that are not blank. -/
def inked (text : List Char) : List Char := text.filter isInk

/-- How many characters of a text are not blank. -/
def ink (text : List Char) : Nat := (inked text).length

theorem inked_append (text more : List Char) : inked (text ++ more) = inked text ++ inked more :=
  List.filter_append text more

theorem inked_cons (c : Char) (text : List Char) : inked (c :: text) = inked [c] ++ inked text :=
  inked_append [c] text

@[simp] theorem ink_nil : ink [] = 0 := rfl

theorem ink_append (text more : List Char) : ink (text ++ more) = ink text + ink more := by
  rw [ink, inked_append, List.length_append]
  rfl

theorem ink_cons (c : Char) (text : List Char) : ink (c :: text) = ink [c] + ink text :=
  ink_append [c] text

theorem ink_cons_of_isInk {c : Char} (h : isInk c = true) (text : List Char) :
    ink (c :: text) = ink text + 1 := by
  rw [ink, inked, List.filter_cons_of_pos h]
  rfl

@[simp] theorem ink_backslashes (n : Nat) : ink (List.replicate n '\\') = n := by
  rw [ink, inked, List.filter_eq_self.mpr, List.length_replicate]
  intro c hc
  rw [List.eq_of_mem_replicate hc]
  decide

theorem ink_le_length (text : List Char) : ink text ≤ text.length :=
  List.length_filter_le _ _

/-- A text without blanks is all ink. -/
theorem inked_of_no_blank {text : List Char} (h : ∀ c ∈ text, Text.isBlank c = false) :
    inked text = text := by
  refine List.filter_eq_self.mpr fun c hc => ?_
  have hspace : c ≠ ' ' := by
    rintro rfl
    exact absurd (h ' ' hc) (by decide)
  have htab : c ≠ '\t' := by
    rintro rfl
    exact absurd (h '\t' hc) (by decide)
  simp [isInk, hspace, htab]

/-! ### Tags -/

/-- Cutting a text before the first of some character in it. -/
theorem takeWhile_ne_iff {d : Char} {text front : List Char} :
    text.takeWhile (· ≠ d) = front ∧ front.length < text.length ↔
      d ∉ front ∧ front ++ [d] <+: text := by
  constructor
  · rintro ⟨rfl, hlength⟩
    refine ⟨fun hd => absurd (List.mem_takeWhile_imp hd) (by simp), ?_⟩
    have hcut := List.takeWhile_append_dropWhile (p := (· ≠ d)) (l := text)
    have hhead := List.head?_dropWhile_not (· ≠ d) text
    cases hdrop : text.dropWhile (· ≠ d) with
    | nil =>
        rw [hdrop, List.append_nil] at hcut
        rw [hcut] at hlength
        exact absurd hlength (Nat.lt_irrefl _)
    | cons e rest =>
        rw [hdrop] at hhead hcut
        obtain rfl : e = d := by simpa using hhead
        exact ⟨rest, by rw [List.append_assoc, List.singleton_append, hcut]⟩
  · rintro ⟨hd, rest, rfl⟩
    have hfront : ∀ c ∈ front, decide (c ≠ d) = true := by
      intro c hc
      simpa using ne_of_mem_of_not_mem hc hd
    rw [List.append_assoc, List.takeWhile_append_of_pos hfront, List.singleton_append,
      List.takeWhile_cons_of_neg (by simp), List.append_nil]
    exact ⟨rfl, by simp⟩

/-- What can stand between the brackets of a tag that begins with one of some characters. -/
structure IsTag (begins : Char → Bool) (body : List Char) : Prop where
  first : ∃ c rest, body = c :: rest ∧ begins c = true
  noOpen : '[' ∉ body
  noClose : ']' ∉ body

/-- A tag that begins with one of some characters stands in the text. -/
def HasTag (begins : Char → Bool) (text : List Char) : Prop :=
  ∃ body, IsTag begins body ∧ '[' :: (body ++ [']']) <:+: text

/-- Whether a tag that begins with this character closes another one. -/
def closes (c : Char) : Bool := c == '/'

variable {begins : Char → Bool} {text body rest : List Char} {c : Char} {quotes : Nat}

theorem HasTag.of_infix {part : List Char} (h : HasTag begins part) (hpart : part <:+: text) :
    HasTag begins text := by
  obtain ⟨body, hbody, hinfix⟩ := h
  exact ⟨body, hbody, hinfix.trans hpart⟩

theorem tagAt?_eq_some_iff :
    tagAt? text = some body ↔ IsTag beginsTag body ∧ '[' :: (body ++ [']']) <+: text := by
  unfold tagAt?
  split
  case h_1 c rest =>
      have hcut := @takeWhile_ne_iff ']' (c :: rest) body
      rw [Option.ite_none_right_eq_some, Option.some.injEq, List.cons_prefix_cons]
      simp only [Bool.and_eq_true, decide_eq_true_eq, Bool.not_eq_true', List.contains_eq_mem,
        decide_eq_false_iff_not, true_and]
      constructor
      · rintro ⟨⟨⟨hc, hlength⟩, hopen⟩, rfl⟩
        obtain ⟨hclose, hprefix⟩ := hcut.mp ⟨rfl, hlength⟩
        have hne : c ≠ ']' := by
          rintro rfl
          exact absurd hc (by decide)
        exact ⟨⟨⟨c, _, List.takeWhile_cons_of_pos (by simpa using hne), hc⟩, hopen, hclose⟩,
          hprefix⟩
      · rintro ⟨⟨⟨d, more, rfl, hd⟩, hopen, hclose⟩, hprefix⟩
        obtain ⟨heq, hlength⟩ := hcut.mpr ⟨hclose, hprefix⟩
        obtain ⟨rfl, -⟩ := List.cons_prefix_cons.mp hprefix
        rw [heq]
        exact ⟨⟨⟨hd, hlength⟩, hopen⟩, rfl⟩
  case h_2 hother =>
      constructor
      · intro h
        cases h
      · rintro ⟨⟨⟨d, more, rfl, -⟩, -, -⟩, rest, rfl⟩
        exact absurd rfl (hother d (more ++ [']'] ++ rest))

/-- A tag with backslashes before it, and what comes after it. -/
def quotedTag (quotes : Nat) (body rest : List Char) : List Char :=
  List.replicate quotes '\\' ++ '[' :: (body ++ ']' :: rest)

/-- A tag that is found, and the backslashes before it. -/
theorem quotedTagAt?_eq_some_iff :
    quotedTagAt? text = some (quotes, body) ↔
      IsTag beginsTag body ∧ ∃ rest, text = quotedTag quotes body rest := by
  constructor
  · intro h
    obtain ⟨found, hfound, heq⟩ := Option.map_eq_some_iff.mp h
    obtain ⟨rfl, rfl⟩ := Prod.mk.inj heq
    obtain ⟨hbody, rest, hrest⟩ := tagAt?_eq_some_iff.mp hfound
    refine ⟨hbody, rest, ?_⟩
    have hquotes : text.takeWhile (· = '\\') =
        List.replicate (text.takeWhile (· = '\\')).length '\\' := by
      refine List.eq_replicate_iff.mpr ⟨rfl, fun c hc => ?_⟩
      simpa using List.mem_takeWhile_imp hc
    have htag : '[' :: (found ++ ']' :: rest) = text.drop (text.takeWhile (· = '\\')).length := by
      simpa using hrest
    rw [quotedTag, htag, ← hquotes]
    exact (List.prefix_iff_eq_append.mp (List.takeWhile_prefix _)).symm
  · rintro ⟨hbody, rest, rfl⟩
    have hquotes : (quotedTag quotes body rest).takeWhile (· = '\\') =
        List.replicate quotes '\\' := by
      rw [quotedTag, List.takeWhile_append_of_pos (by simp), List.takeWhile_cons_of_neg (by decide),
        List.append_nil]
    have htag : tagAt? ('[' :: (body ++ ']' :: rest)) = some body :=
      tagAt?_eq_some_iff.mpr ⟨hbody, rest, by simp⟩
    rw [quotedTagAt?, hquotes, List.length_replicate, quotedTag,
      List.drop_left' List.length_replicate, htag]
    rfl

theorem hasTag_quotedTag (h : IsTag beginsTag body) (quotes : Nat) (rest : List Char) :
    HasTag beginsTag (quotedTag quotes body rest) :=
  ⟨body, h, List.replicate quotes '\\', rest, by simp [quotedTag]⟩

/-- Where no tag is found, a tag of the text stands later. -/
theorem HasTag.of_cons (h : HasTag beginsTag (c :: rest))
    (hnone : quotedTagAt? (c :: rest) = none) : HasTag beginsTag rest := by
  obtain ⟨body, hbody, hinfix⟩ := h
  rcases List.infix_cons_iff.mp hinfix with ⟨after, hafter⟩ | hinfix
  · have hfound : quotedTagAt? (c :: rest) = some (0, body) :=
      quotedTagAt?_eq_some_iff.mpr ⟨hbody, after, by simpa [quotedTag] using hafter.symm⟩
    rw [hnone] at hfound
    cases hfound
  · exact ⟨body, hbody, hinfix⟩

/-! ### Pieces -/

theorem pieces_skip (skip position : Nat) (text : List Char) :
    pieces skip position text = pieces 0 (position + skip) (text.drop skip) := by
  induction skip generalizing position text with
  | zero => rfl
  | succ skip ih =>
      cases text with
      | nil => simp [pieces]
      | cons c text =>
          rw [pieces, ih, List.drop_succ_cons]
          congr 1
          omega

theorem pieces_char (h : quotedTagAt? (c :: rest) = none) (position : Nat) :
    pieces 0 position (c :: rest) = addChar c (pieces 0 (position + 1) rest) := by
  rw [pieces, h]

theorem pieces_quotedTag (h : IsTag beginsTag body) (quotes : Nat) (rest : List Char)
    (position : Nat) :
    pieces 0 position (quotedTag quotes body rest) = tagPieces quotes body position ++
      pieces 0 (position + 1 + (quotes + body.length + 1)) rest := by
  have hfound := quotedTagAt?_eq_some_iff.mpr ⟨h, rest, @rfl _ (quotedTag quotes body rest)⟩
  have hrest : (quotedTag quotes body rest).drop (quotes + body.length + 2) = rest := by
    have hsplit : quotedTag quotes body rest =
        (List.replicate quotes '\\' ++ '[' :: (body ++ [']'])) ++ rest := by
      simp [quotedTag]
    rw [hsplit]
    exact List.drop_left' (by simp; omega)
  cases htext : quotedTag quotes body rest with
  | nil => simp [quotedTag] at htext
  | cons c text =>
      rw [htext] at hfound hrest
      rw [pieces, hfound]
      dsimp only
      rw [pieces_skip, List.drop_succ_cons.symm.trans hrest]

/-- Induction along the tags of a text. -/
theorem tag_induction {P : List Char → Prop} (nil : P [])
    (char : ∀ c rest, quotedTagAt? (c :: rest) = none → P rest → P (c :: rest))
    (tag : ∀ quotes body rest, IsTag beginsTag body → P rest → P (quotedTag quotes body rest))
    (text : List Char) : P text := by
  induction hlength : text.length using Nat.strong_induction_on generalizing text with
  | _ n ih =>
      subst hlength
      cases text with
      | nil => exact nil
      | cons c rest =>
          cases hfound : quotedTagAt? (c :: rest) with
          | none => exact char c rest hfound (ih rest.length (by simp) rest rfl)
          | some found =>
              obtain ⟨hbody, after, htext⟩ := quotedTagAt?_eq_some_iff.mp hfound
              rw [htext] at ih ⊢
              refine tag _ _ after hbody (ih after.length ?_ after rfl)
              simp [quotedTag]
              omega

/-- The characters of a piece that are for printing. -/
def Piece.chars : Piece → List Char
  | .text chars => chars
  | .literal chars => chars
  | .tag _ _ => []

/-- The ink in some pieces. -/
def inkIn (ps : List Piece) : Nat :=
  ink (ps.flatMap Piece.chars)

@[simp] theorem inkIn_nil : inkIn [] = 0 := rfl

theorem inkIn_cons (p : Piece) (ps : List Piece) : inkIn (p :: ps) = ink p.chars + inkIn ps := by
  rw [inkIn, List.flatMap_cons, ink_append, inkIn]

theorem inkIn_append (ps qs : List Piece) : inkIn (ps ++ qs) = inkIn ps + inkIn qs := by
  rw [inkIn, List.flatMap_append, ink_append, inkIn, inkIn]

theorem inkIn_addChar (c : Char) (ps : List Piece) : inkIn (addChar c ps) = ink [c] + inkIn ps := by
  unfold addChar
  split
  · simp only [inkIn_cons, Piece.chars]
    rw [ink_cons]
    omega
  · rw [inkIn_cons, Piece.chars]

/-- A tag is read as less ink than it has. -/
theorem inkIn_tagPieces (quotes : Nat) (body : List Char) (position : Nat) :
    inkIn (tagPieces quotes body position) < quotes + ink body + 2 := by
  have hliteral : ink ('[' :: (body ++ [']'])) = ink body + 2 := by
    rw [ink_cons_of_isInk (by decide), ink_append]
    rfl
  unfold tagPieces
  split <;> split <;> simp [inkIn_cons, Piece.chars, hliteral] <;> omega

theorem ink_quotedTag (quotes : Nat) (body rest : List Char) :
    ink (quotedTag quotes body rest) = quotes + ink body + 2 + ink rest := by
  rw [quotedTag, ink_append, ink_backslashes, ink_cons_of_isInk (by decide), ink_append,
    ink_cons_of_isInk (by decide)]
  omega

theorem inkIn_pieces_le (text : List Char) (position : Nat) :
    inkIn (pieces 0 position text) ≤ ink text := by
  induction text using tag_induction generalizing position with
  | nil => exact Nat.le_refl _
  | char c rest hnone ih =>
      rw [pieces_char hnone, inkIn_addChar, ink_cons c rest]
      exact Nat.add_le_add_left (ih _) _
  | tag quotes body rest hbody ih =>
      have htag := inkIn_tagPieces quotes body position
      have hrest := ih (position + 1 + (quotes + body.length + 1))
      rw [pieces_quotedTag hbody, inkIn_append, ink_quotedTag]
      omega

/-- A text with a tag loses ink. -/
theorem inkIn_pieces_lt (h : HasTag beginsTag text) (position : Nat) :
    inkIn (pieces 0 position text) < ink text := by
  induction text using tag_induction generalizing position with
  | nil =>
      obtain ⟨body, -, hinfix⟩ := h
      cases List.infix_nil.mp hinfix
  | char c rest hnone ih =>
      rw [pieces_char hnone, inkIn_addChar, ink_cons c rest]
      exact Nat.add_lt_add_left (ih (h.of_cons hnone) _) _
  | tag quotes body rest hbody ih =>
      have htag := inkIn_tagPieces quotes body position
      have hrest := inkIn_pieces_le rest (position + 1 + (quotes + body.length + 1))
      rw [pieces_quotedTag hbody, inkIn_append, ink_quotedTag]
      omega

/-- A text without tags is a piece of its own. -/
theorem pieces_of_not_hasTag (h : ¬HasTag beginsTag text) (hne : text ≠ []) (position : Nat) :
    pieces 0 position text = [.text text] := by
  induction text using tag_induction generalizing position with
  | nil => exact absurd rfl hne
  | char c rest hnone ih =>
      rw [pieces_char hnone]
      cases rest with
      | nil => rfl
      | cons d rest =>
          have hrest : ¬HasTag beginsTag (d :: rest) := by
            intro htag
            exact h (htag.of_infix (List.suffix_cons c _).isInfix)
          rw [ih hrest (List.cons_ne_nil d rest)]
          rfl
  | tag quotes body rest hbody ih => exact absurd (hasTag_quotedTag hbody quotes rest) h

theorem mem_addChar_tag {ps : List Piece} {place : Nat} (h : .tag body place ∈ addChar c ps) :
    .tag body place ∈ ps := by
  unfold addChar at h
  split at h <;> simpa using h

theorem mem_tagPieces_tag {position place : Nat} {found : List Char}
    (h : .tag found place ∈ tagPieces quotes body position) : found = body := by
  unfold tagPieces at h
  split at h <;> split at h <;> simp_all

/-- The tags among the pieces are tags of the text. -/
theorem mem_pieces_tag {position place : Nat} (h : .tag body place ∈ pieces 0 position text) :
    IsTag beginsTag body ∧ '[' :: (body ++ [']']) <:+: text := by
  induction text using tag_induction generalizing position with
  | nil => cases h
  | char c rest hnone ih =>
      rw [pieces_char hnone] at h
      obtain ⟨hbody, hinfix⟩ := ih (mem_addChar_tag h)
      exact ⟨hbody, List.infix_cons hinfix⟩
  | tag quotes found rest hfound ih =>
      rw [pieces_quotedTag hfound] at h
      rcases List.mem_append.mp h with h | h
      · rw [mem_tagPieces_tag h]
        exact ⟨hfound, List.replicate quotes '\\', rest, by simp [quotedTag]⟩
      · obtain ⟨hbody, hinfix⟩ := ih h
        have hrest : rest <:+: quotedTag quotes found rest :=
          ⟨List.replicate quotes '\\' ++ '[' :: (found ++ [']']), [], by simp [quotedTag]⟩
        exact ⟨hbody, hinfix.trans hrest⟩

/-! ### Text before a tag -/

/-- A tag does not go on into another one. -/
theorem tagAt?_append (hne : text ≠ []) (more : List Char) :
    tagAt? (text ++ '[' :: more) = tagAt? text := by
  refine Option.ext fun body => ?_
  rw [tagAt?_eq_some_iff, tagAt?_eq_some_iff]
  refine and_congr_right fun hbody => ⟨?_, fun h => h.trans (List.prefix_append _ _)⟩
  rintro ⟨rest, hrest⟩
  rcases List.append_eq_append_iff.mp hrest with ⟨after, htext, -⟩ | ⟨after, htag, hafter⟩
  · exact ⟨after, htext.symm⟩
  · cases after with
    | nil => exact ⟨[], by rw [htag, List.append_nil, List.append_nil]⟩
    | cons d after =>
        -- the bracket would be inside the tag
        obtain ⟨rfl, -⟩ := List.cons.inj hafter
        obtain ⟨first, others, rfl⟩ := List.exists_cons_of_ne_nil hne
        have hinside : body ++ [']'] = others ++ '[' :: after := (List.cons.inj htag).2
        have hopen : '[' ∈ body ++ [']'] := by simp [hinside]
        simp [hbody.noOpen] at hopen

theorem quotedTagAt?_append (hne : text ≠ []) (hlast : text.getLast? ≠ some '\\')
    (more : List Char) : quotedTagAt? (text ++ '[' :: more) = quotedTagAt? text := by
  have hquotes : (text.takeWhile (· = '\\')).length ≠ text.length := by
    intro hlength
    have hall := (List.takeWhile_prefix (l := text) (· = '\\')).eq_of_length hlength
    obtain ⟨d, hd⟩ : ∃ d, text.getLast? = some d := ⟨_, List.getLast?_eq_some_getLast hne⟩
    have hmem := List.mem_of_getLast? hd
    rw [← hall] at hmem
    have hback : d = '\\' := by simpa using List.mem_takeWhile_imp hmem
    exact hlast (hback ▸ hd)
  have hle := (List.takeWhile_prefix (l := text) (· = '\\')).length_le
  have hdrop : text.drop (text.takeWhile (· = '\\')).length ≠ [] := by
    intro h
    rw [List.drop_eq_nil_iff] at h
    omega
  rw [quotedTagAt?, quotedTagAt?, List.takeWhile_append, if_neg hquotes,
    List.drop_append_of_le_length hle, tagAt?_append hdrop]

theorem addChar_append_tag (c : Char) (ps : List Piece) (body : List Char) (place : Nat)
    (qs : List Piece) :
    addChar c (ps ++ .tag body place :: qs) = addChar c ps ++ .tag body place :: qs := by
  cases ps with
  | nil => rfl
  | cons p ps => cases p <;> rfl

/-- What stands before a tag is read on its own, unless it ends with a backslash. -/
theorem pieces_append_tag (h : IsTag beginsTag body) (rest : List Char) {front : List Char}
    (hlast : front.getLast? ≠ some '\\') (position : Nat) :
    ∃ place after, pieces 0 position (front ++ '[' :: (body ++ ']' :: rest)) =
      pieces 0 position front ++ .tag body place :: pieces 0 after rest := by
  induction front using tag_induction generalizing position with
  | nil =>
      have hpieces := pieces_quotedTag h 0 rest position
      exact ⟨position, _, by simpa [quotedTag, tagPieces, pieces] using hpieces⟩
  | char c front hnone ih =>
      have hfront : front.getLast? ≠ some '\\' := by
        intro hfront
        exact hlast (by simp [List.getLast?_cons, hfront])
      have happend : quotedTagAt? (c :: (front ++ '[' :: (body ++ ']' :: rest))) = none :=
        (quotedTagAt?_append (List.cons_ne_nil c front) hlast _).trans hnone
      obtain ⟨place, after, hpieces⟩ := ih hfront (position + 1)
      refine ⟨place, after, ?_⟩
      rw [List.cons_append, pieces_char happend, hpieces, pieces_char hnone, addChar_append_tag]
  | tag quotes found front hfound ih =>
      have hfront : front.getLast? ≠ some '\\' := by
        intro hfront
        exact hlast (by simp [quotedTag, List.getLast?_append, List.getLast?_cons, hfront])
      obtain ⟨place, after, hpieces⟩ := ih hfront (position + 1 + (quotes + found.length + 1))
      refine ⟨place, after, ?_⟩
      have hinside : quotedTag quotes found front ++ '[' :: (body ++ ']' :: rest) =
          quotedTag quotes found (front ++ '[' :: (body ++ ']' :: rest)) := by
        simp [quotedTag]
      rw [hinside, pieces_quotedTag hfound, hpieces, pieces_quotedTag hfound, List.append_assoc]

/-! ### Printing pieces -/

variable {rules : Rules} {ps qs : List Piece} {opened : List OpenTag} {out : List Char}

/-- A piece is a tag, or its characters are printed before the rest. -/
theorem tag_or_printed (p : Piece) :
    (∃ body place, p = .tag body place) ∨ ∀ rules opened rest,
      printPieces rules opened (p :: rest) =
        (printPieces rules opened rest).map (printed rules.emoji p.chars ++ ·) := by
  cases p with
  | text chars => exact Or.inr fun _ _ _ => rfl
  | literal chars => exact Or.inr fun _ _ _ => rfl
  | tag body place => exact Or.inl ⟨body, place, rfl⟩

theorem printPieces_tag {place : Nat} {tags : List OpenTag}
    (h : openTags rules body place opened = .ok tags) (ps : List Piece) :
    printPieces rules opened (.tag body place :: ps) = printPieces rules tags ps := by
  rw [printPieces, h]

theorem openTags_of_printPieces {place : Nat}
    (h : printPieces rules opened (.tag body place :: ps) = .ok out) :
    ∃ tags, openTags rules body place opened = .ok tags ∧ printPieces rules tags ps = .ok out := by
  rw [printPieces] at h
  cases htags : openTags rules body place opened with
  | error e =>
      rw [htags] at h
      cases h
  | ok tags =>
      rw [htags] at h
      exact ⟨tags, rfl, h⟩

/-- What is printed is printed piece by piece. -/
theorem printPieces_append_eq_ok (h : printPieces rules opened (ps ++ qs) = .ok out) :
    ∃ left front back, printPieces rules opened ps = .ok front ∧
      printPieces rules left qs = .ok back ∧ out = front ++ back := by
  induction ps generalizing opened out with
  | nil => exact ⟨opened, [], out, rfl, h, rfl⟩
  | cons p ps ih =>
      rw [List.cons_append] at h
      rcases tag_or_printed p with ⟨body, place, rfl⟩ | hprinted
      · obtain ⟨tags, htags, h⟩ := openTags_of_printPieces h
        rw [printPieces_tag htags]
        exact ih h
      · rw [hprinted] at h ⊢
        obtain ⟨more, hmore, rfl⟩ := map_eq_ok.mp h
        obtain ⟨left, front, back, hfront, hback, rfl⟩ := ih hmore
        refine ⟨left, _, back, map_eq_ok.mpr ⟨front, hfront, rfl⟩, hback, ?_⟩
        rw [List.append_assoc]

/-- A tag that does not close another one opens one. -/
theorem openTags_of_opening (h : ∀ rest, body ≠ '/' :: rest) (place : Nat)
    (opened : List OpenTag) : ∃ tag, openTags rules body place opened = .ok (tag :: opened) := by
  unfold openTags
  split
  · next rest heq =>
    obtain ⟨more, hmore⟩ := heq ▸ List.takeWhile_prefix (l := body) (· ≠ '=')
    exact absurd hmore.symm (h _)
  · exact ⟨_, rfl⟩

/-- Pieces without closing tags are printed, whatever comes after them. -/
theorem exists_printPieces (h : ∀ body place, .tag body place ∈ ps → ∀ rest, body ≠ '/' :: rest)
    (opened : List OpenTag) :
    ∃ tags front, ∀ qs, printPieces rules opened (ps ++ qs) =
      (printPieces rules (tags ++ opened) qs).map (front ++ ·) := by
  induction ps generalizing opened with
  | nil =>
      refine ⟨[], [], fun qs => ?_⟩
      cases hqs : printPieces rules opened qs <;> simp [Except.map, hqs]
  | cons p ps ih =>
      have hrest := ih fun body place hmem => h body place (List.mem_cons_of_mem p hmem)
      rcases tag_or_printed p with ⟨body, place, rfl⟩ | hprinted
      · obtain ⟨tag, htag⟩ := @openTags_of_opening body rules (h body place List.mem_cons_self)
          place opened
        obtain ⟨tags, front, hfront⟩ := hrest (tag :: opened)
        refine ⟨tags ++ [tag], front, fun qs => ?_⟩
        rw [List.cons_append, printPieces_tag htag, hfront, List.append_assoc,
          List.singleton_append]
      · obtain ⟨tags, front, hfront⟩ := hrest opened
        refine ⟨tags, printed rules.emoji p.chars ++ front, fun qs => ?_⟩
        rw [List.cons_append, hprinted, hfront]
        cases printPieces rules (tags ++ opened) qs <;> simp [Except.map]

/-! ### Codes -/

variable {codes : EmojiCodes}

/-- What can stand between the colons of a code. -/
def IsName (name : List Char) : Prop :=
  ':' ∉ name ∧ ∀ c ∈ name, Text.isBlank c = false

/-- No code in the text has a name that is known.  Codes are read from left to right, and the colon
that ends one does not begin another. -/
inductive Uncoded (codes : EmojiCodes) : List Char → Prop
  | nil : Uncoded codes []
  | char {c : Char} {rest : List Char} (hc : c ≠ ':') (h : Uncoded codes rest) :
      Uncoded codes (c :: rest)
  | loose {rest : List Char} (hnone : ∀ name, IsName name → ¬name ++ [':'] <+: rest)
      (h : Uncoded codes rest) : Uncoded codes (':' :: rest)
  | unknown {name rest : List Char} (hname : IsName name) (hcode : codes name = none)
      (h : Uncoded codes rest) : Uncoded codes (':' :: name ++ ':' :: rest)

/-- What a code is shown as is no longer than the code, and has no colon. -/
def EmojiCodes.Brief (codes : EmojiCodes) : Prop :=
  ∀ name shown, codes name = some shown → shown.length ≤ name.length + 2 ∧ ':' ∉ shown

theorem emojiNameAt?_eq_some_iff {name : List Char} :
    emojiNameAt? text = some name ↔ IsName name ∧ name ++ [':'] <+: text := by
  have hcut := @takeWhile_ne_iff ':' text name
  unfold emojiNameAt?
  rw [Option.ite_none_right_eq_some, Option.some.injEq]
  simp only [Bool.and_eq_true, decide_eq_true_eq, Bool.not_eq_true', List.any_eq_false,
    Bool.not_eq_true]
  constructor
  · rintro ⟨⟨hlength, hblank⟩, rfl⟩
    obtain ⟨hcolon, hprefix⟩ := hcut.mp ⟨rfl, hlength⟩
    exact ⟨⟨hcolon, hblank⟩, hprefix⟩
  · rintro ⟨⟨hcolon, hblank⟩, hprefix⟩
    obtain ⟨heq, hlength⟩ := hcut.mpr ⟨hcolon, hprefix⟩
    rw [heq]
    exact ⟨⟨hlength, hblank⟩, rfl⟩

theorem replaceEmoji_skip (skip : Nat) (text : List Char) :
    replaceEmoji codes skip text = replaceEmoji codes 0 (text.drop skip) := by
  induction skip generalizing text with
  | zero => rfl
  | succ skip ih =>
      cases text with
      | nil => simp [replaceEmoji]
      | cons c text => exact ih text

theorem replaceEmoji_char (hc : c ≠ ':') (rest : List Char) :
    replaceEmoji codes 0 (c :: rest) = c :: replaceEmoji codes 0 rest := by
  rw [replaceEmoji, if_neg hc]

theorem replaceEmoji_loose (h : emojiNameAt? rest = none) :
    replaceEmoji codes 0 (':' :: rest) = ':' :: replaceEmoji codes 0 rest := by
  rw [replaceEmoji, if_pos rfl, h]

theorem replaceEmoji_code {name : List Char} (h : IsName name) (rest : List Char) :
    replaceEmoji codes 0 (':' :: name ++ ':' :: rest) =
      (codes name).getD (':' :: name ++ [':']) ++ replaceEmoji codes 0 rest := by
  have hname : emojiNameAt? (name ++ ':' :: rest) = some name :=
    emojiNameAt?_eq_some_iff.mpr ⟨h, rest, by simp⟩
  rw [List.cons_append, replaceEmoji, if_pos rfl, hname]
  dsimp only
  rw [replaceEmoji_skip]
  congr 1
  simp

/-- Induction along the codes of a text. -/
theorem code_induction {P : List Char → Prop} (nil : P [])
    (char : ∀ c rest, c ≠ ':' → P rest → P (c :: rest))
    (loose : ∀ rest, emojiNameAt? rest = none → P rest → P (':' :: rest))
    (code : ∀ name rest, IsName name → P rest → P (':' :: name ++ ':' :: rest))
    (text : List Char) : P text := by
  induction hlength : text.length using Nat.strong_induction_on generalizing text with
  | _ n ih =>
      subst hlength
      cases text with
      | nil => exact nil
      | cons c rest =>
          have hrest := ih rest.length (by simp) rest rfl
          by_cases hc : c = ':'
          · subst hc
            cases hname : emojiNameAt? rest with
            | none => exact loose rest hname hrest
            | some name =>
                obtain ⟨hisName, after, rfl⟩ := emojiNameAt?_eq_some_iff.mp hname
                rw [List.append_assoc, List.singleton_append]
                exact code name after hisName (ih after.length (by simp; omega) after rfl)
          · exact char c rest hc hrest

/-- A code without blanks is all ink. -/
theorem ink_code {name : List Char} (h : IsName name) (rest : List Char) :
    ink (':' :: name ++ ':' :: rest) = name.length + 2 + ink rest := by
  rw [List.cons_append, ink_cons_of_isInk (by decide), ink_append, ink_cons_of_isInk (by decide),
    ink, inked_of_no_blank h.2]
  omega

theorem ink_replaceEmoji_le (hcodes : codes.Brief) (text : List Char) :
    ink (replaceEmoji codes 0 text) ≤ ink text := by
  induction text using code_induction with
  | nil => exact Nat.le_refl _
  | char c rest hc ih =>
      rw [replaceEmoji_char hc, ink_cons c rest, ink_cons c]
      exact Nat.add_le_add_left ih _
  | loose rest hnone ih =>
      rw [replaceEmoji_loose hnone, ink_cons ':' rest, ink_cons ':']
      exact Nat.add_le_add_left ih _
  | code name rest hname ih =>
      rw [replaceEmoji_code hname, ink_append, ink_code hname]
      cases hshown : codes name with
      | none =>
          rw [Option.getD_none, ink_code hname [], ink_nil]
          omega
      | some shown =>
          have hbrief := (hcodes name shown hshown).1
          have hlength := ink_le_length shown
          rw [Option.getD_some]
          omega

theorem replaceEmoji_of_uncoded (h : Uncoded codes text) : replaceEmoji codes 0 text = text := by
  induction h with
  | nil => rfl
  | char hc h ih => rw [replaceEmoji_char hc, ih]
  | @loose rest hnone h ih =>
      have hnone : emojiNameAt? rest = none := by
        cases hname : emojiNameAt? rest with
        | none => rfl
        | some name =>
            obtain ⟨hisName, hprefix⟩ := emojiNameAt?_eq_some_iff.mp hname
            exact absurd hprefix (hnone name hisName)
      rw [replaceEmoji_loose hnone, ih]
  | unknown hname hcode h ih =>
      rw [replaceEmoji_code hname, hcode, ih]
      simp

/-- An emoji shows in the ink. -/
theorem uncoded_of_inked (hcodes : codes.Brief)
    (h : inked (replaceEmoji codes 0 text) = inked text) : Uncoded codes text := by
  induction text using code_induction with
  | nil => exact .nil
  | char c rest hc ih =>
      rw [replaceEmoji_char hc, inked_cons c rest, inked_cons c] at h
      exact .char hc (ih (List.append_cancel_left h))
  | loose rest hnone ih =>
      rw [replaceEmoji_loose hnone, inked_cons ':' rest, inked_cons ':'] at h
      refine .loose (fun name hname hprefix => ?_) (ih (List.append_cancel_left h))
      rw [emojiNameAt?_eq_some_iff.mpr ⟨hname, hprefix⟩] at hnone
      cases hnone
  | code name rest hname ih =>
      rw [replaceEmoji_code hname, inked_append] at h
      cases hshown : codes name with
      | none =>
          rw [hshown, Option.getD_none] at h
          have hsplit : ':' :: name ++ ':' :: rest = (':' :: name ++ [':']) ++ rest := by simp
          rw [hsplit, inked_append (':' :: name ++ [':']) rest] at h
          exact .unknown hname hshown (ih (List.append_cancel_left h))
      | some shown =>
          -- the colon at the front is not the emoji's, and the rest has too little ink for it
          rw [hshown, Option.getD_some] at h
          have hless := ink_replaceEmoji_le hcodes rest
          have hcode := ink_code hname rest
          cases hinked : inked shown with
          | nil =>
              rw [hinked, List.nil_append] at h
              rw [ink, h] at hless
              rw [ink] at hcode
              omega
          | cons c others =>
              have hmem : c ∈ shown := (List.mem_filter.mp (hinked ▸ List.mem_cons_self)).1
              have hcolon : inked (':' :: name ++ ':' :: rest) =
                  ':' :: inked (name ++ ':' :: rest) := List.filter_cons_of_pos (by decide)
              rw [hinked, List.cons_append, hcolon] at h
              obtain ⟨rfl, -⟩ := List.cons.inj h
              exact absurd hmem (hcodes name shown hshown).2

/-! ### Texts that print as they are -/

/-- A bracket with a backslash before it. -/
def quoted : List Char := ['\\', '[']

theorem dropQuotes_of_not_quoted (h : ¬quoted <:+: text) : dropQuotes text = text := by
  fun_induction dropQuotes text with
  | case1 rest => exact absurd ⟨[], rest, rfl⟩ h
  | case2 c rest hother ih => rw [ih fun hrest => h (List.infix_cons hrest)]
  | case3 => rfl

theorem ink_dropQuotes_le (text : List Char) : ink (dropQuotes text) ≤ ink text := by
  fun_induction dropQuotes text with
  | case1 rest ih =>
      rw [ink_cons '[', ink_cons '\\', ink_cons '[' rest]
      omega
  | case2 c rest hother ih =>
      rw [ink_cons c rest, ink_cons c]
      exact Nat.add_le_add_left ih _
  | case3 => exact Nat.le_refl _

theorem ink_dropQuotes_lt (h : quoted <:+: text) : ink (dropQuotes text) < ink text := by
  fun_induction dropQuotes text with
  | case1 rest =>
      have hrest := ink_dropQuotes_le rest
      rw [ink_cons '[', ink_cons_of_isInk (c := '\\') (by decide), ink_cons '[' rest]
      omega
  | case2 c rest hother ih =>
      rcases List.infix_cons_iff.mp h with ⟨after, hafter⟩ | hrest
      · obtain ⟨rfl, rfl⟩ := List.cons.inj hafter
        exact absurd rfl (hother after rfl)
      · rw [ink_cons c rest, ink_cons c]
        exact Nat.add_lt_add_left (ih hrest) _
  | case3 => cases List.infix_nil.mp h

theorem isInk_of_isStripped (h : isStripped c = true) : isInk c = true := by
  have hspace : c ≠ ' ' := by
    rintro rfl
    exact absurd h (by decide)
  have htab : c ≠ '\t' := by
    rintro rfl
    exact absurd h (by decide)
  simp [isInk, hspace, htab]

theorem inked_filter_sublist (text : List Char) (keep : Char → Bool) :
    (inked (text.filter keep)).Sublist (inked text) :=
  List.filter_sublist.filter isInk

theorem ink_filter_le (text : List Char) (keep : Char → Bool) : ink (text.filter keep) ≤ ink text :=
  (inked_filter_sublist text keep).length_le

/-- Nothing is stripped from a text that keeps its ink. -/
theorem not_isStripped_of_ink {chars : List Char}
    (h : ink chars ≤ ink (chars.filter fun c => !isStripped c)) :
    ∀ c ∈ chars, isStripped c = false := by
  have hkept : inked (chars.filter fun c => !isStripped c) = inked chars :=
    (inked_filter_sublist chars _).eq_of_length_le h
  intro c hc
  cases hstripped : isStripped c with
  | false => rfl
  | true =>
      have hmem : c ∈ inked chars := List.mem_filter.mpr ⟨hc, isInk_of_isStripped hstripped⟩
      rw [← hkept, inked, List.mem_filter, List.mem_filter, hstripped] at hmem
      exact absurd hmem.1.2 (by decide)

theorem ink_printed_le (hcodes : codes.Brief) (text : List Char) :
    ink (printed codes text) ≤ ink text :=
  calc ink (printed codes text)
    _ ≤ ink (replaceEmoji codes 0 (dropQuotes text)) := ink_filter_le _ _
    _ ≤ ink (dropQuotes text) := ink_replaceEmoji_le hcodes _
    _ ≤ ink text := ink_dropQuotes_le text

/-- A text that the console prints as it is: it holds no tag, no quoted bracket, no code with a name
that is known, and no character that is never printed. -/
structure Unmarked (codes : EmojiCodes) (text : List Char) : Prop where
  untagged : ¬HasTag beginsTag text
  unquoted : ¬quoted <:+: text
  uncoded : Uncoded codes text
  printable : ∀ c ∈ text, isStripped c = false

theorem unmarked_nil : Unmarked codes [] where
  untagged := by
    rintro ⟨body, -, hinfix⟩
    cases List.infix_nil.mp hinfix
  unquoted := by simp [quoted]
  uncoded := .nil
  printable := by simp

theorem Unmarked.printed_eq (h : Unmarked codes text) : printed codes text = text := by
  rw [printed, dropQuotes_of_not_quoted h.unquoted, replaceEmoji_of_uncoded h.uncoded]
  exact List.filter_eq_self.mpr fun c hc => by simpa using h.printable c hc

/-- Without tags, a text is unmarked if its ink comes out. -/
theorem unmarked_of_printed (hcodes : codes.Brief) (htag : ¬HasTag beginsTag text)
    (h : inked (printed codes text) = inked text) : Unmarked codes text := by
  have hink : ink text = ink (printed codes text) := congrArg List.length h.symm
  rw [printed] at h hink
  have hquoted : ¬quoted <:+: text := by
    intro hquoted
    have hdrop := ink_dropQuotes_lt hquoted
    have hemoji := ink_replaceEmoji_le hcodes (dropQuotes text)
    have hstrip := ink_filter_le (replaceEmoji codes 0 (dropQuotes text)) fun c => !isStripped c
    omega
  rw [dropQuotes_of_not_quoted hquoted] at h hink
  have hkept := not_isStripped_of_ink
    (Nat.le_trans (ink_replaceEmoji_le hcodes text) (Nat.le_of_eq hink))
  rw [List.filter_eq_self.mpr fun c hc => by simpa using hkept c hc] at h
  have huncoded := uncoded_of_inked hcodes h
  rw [replaceEmoji_of_uncoded huncoded] at hkept
  exact ⟨htag, hquoted, huncoded, hkept⟩

/-- Printing never makes for more ink. -/
theorem ink_printPieces_le (hemoji : rules.emoji.Brief)
    (h : printPieces rules opened ps = .ok out) : ink out ≤ inkIn ps := by
  induction ps generalizing opened out with
  | nil =>
      cases h
      exact Nat.zero_le _
  | cons p ps ih =>
      rw [inkIn_cons]
      rcases tag_or_printed p with ⟨body, place, rfl⟩ | hprinted
      · obtain ⟨tags, -, h⟩ := openTags_of_printPieces h
        exact Nat.le_trans (ih h) (Nat.le_add_left _ _)
      · rw [hprinted] at h
        obtain ⟨more, hmore, rfl⟩ := map_eq_ok.mp h
        rw [ink_append]
        exact Nat.add_le_add (ink_printed_le hemoji _) (ih hmore)

/-- An unmarked text is printed as it is, whatever comes after it. -/
theorem Unmarked.printPieces_append (h : Unmarked rules.emoji text) (position : Nat)
    (opened : List OpenTag) (ps : List Piece) :
    printPieces rules opened (pieces 0 position text ++ ps) =
      (printPieces rules opened ps).map (text ++ ·) := by
  by_cases hnil : text = []
  · subst hnil
    cases hps : printPieces rules opened ps <;> simp [pieces, hps, Except.map]
  · rw [pieces_of_not_hasTag h.untagged hnil]
    simp [printPieces, h.printed_eq]

theorem Unmarked.printPieces_eq (h : Unmarked rules.emoji text) (position : Nat)
    (opened : List OpenTag) : printPieces rules opened (pieces 0 position text) = .ok text := by
  have happend := h.printPieces_append position opened []
  rw [List.append_nil] at happend
  rw [happend, printPieces, Except.map, List.append_nil]

/-- A text is unmarked if its ink comes out. -/
theorem unmarked_of_printPieces (hemoji : rules.emoji.Brief) {position : Nat}
    (h : printPieces rules opened (pieces 0 position text) = .ok out)
    (hink : inked out = inked text) : Unmarked rules.emoji text := by
  by_cases htag : HasTag beginsTag text
  · -- a tag takes its ink with it
    have hless := inkIn_pieces_lt htag position
    have hle := ink_printPieces_le hemoji h
    rw [ink, hink] at hle
    rw [ink] at hless
    omega
  by_cases hnil : text = []
  · subst hnil
    exact unmarked_nil
  rw [pieces_of_not_hasTag htag hnil] at h
  obtain rfl : printed rules.emoji text = out := by simpa [printPieces, Except.map] using h
  exact unmarked_of_printed hemoji htag hink

end Tighten.Console
