import Tighten.Rust.Token
import Tighten.Syntax.Node

/-
Phrases: grammars as data, and one reader for all of them.

A phrase describes a stretch of tokens.  Choices are ordered and the first alternative that matches
is taken; a repetition takes as much as it can.  A phrase can look ahead without taking anything,
and it can commit: once a committed part has begun, its failure is the failure of the whole text,
so a mistake deep inside a block is not looked at again under every other reading of its
surroundings.

The grammar itself is a function from symbols to phrases, and the reader is the only recursive
definition.  It recurs on a bound for the depth of its calls, which a multiple of the number of
tokens satisfies: along any chain of calls that takes no token, only finitely many symbols of the
grammar can follow each other.
-/
namespace Tighten.Rust

open Syntax

/-! ### Phrases -/

/-- A condition on one token. -/
inductive Test where
  /-- The word itself. -/
  | word (text : String)
  /-- Any word but those that mean something else in this place. -/
  | name (keywords : List String)
  | lexeme (lexeme : Lexeme)
  /-- One of these single characters. -/
  | among (glyphs : List Char)
  /-- Anything but these single characters. -/
  | except (glyphs : List Char)
deriving Repr

/-- Whether a token meets a condition. -/
def Test.accepts (t : Token) : Test → Bool
  | .word text => t.lexeme == .word text
  | .name keywords =>
    match t.lexeme with
    | .word text => !keywords.contains text
    | _ => false
  | .lexeme l => t.lexeme == l
  | .among glyphs =>
    match t.lexeme with
    | .glyph c => glyphs.contains c
    | _ => false
  | .except glyphs =>
    match t.lexeme with
    | .glyph c => !glyphs.contains c
    | _ => true

/-- A stretch of tokens, where `σ` is the type of the grammar's symbols. -/
inductive Phrase (σ : Type) where
  /-- Nothing at all. -/
  | nothing
  /-- One token. -/
  | token (test : Test)
  /-- Single characters with nothing between them. -/
  | glyphs (cs : List Char)
  /-- One phrase after the other. -/
  | seq (first second : Phrase σ)
  /-- The first phrase, or the second where the first does not match. -/
  | alt (first second : Phrase σ)
  /-- The phrase as often as it matches. -/
  | many (body : Phrase σ)
  /-- Nothing, where the phrase would match. -/
  | ahead (body : Phrase σ)
  /-- Nothing, where the phrase would not match. -/
  | unless (body : Phrase σ)
  /-- The phrase, without which the whole text is malformed. -/
  | commit (body : Phrase σ)
  /-- The phrase, as a node of the syntax tree. -/
  | node (kind : Kind) (role : Role) (body : Phrase σ)
  /-- The phrase that the grammar gives a symbol. -/
  | symbol (s : σ)
deriving Repr

/-! ### Reading -/

/-- A place between tokens. -/
structure Cursor where
  /-- The offset just past the last token taken. -/
  past : Nat
  /-- The tokens not yet taken. -/
  rest : List Token
deriving Repr

/-- The offset of the next token. -/
def Cursor.next (c : Cursor) : Nat :=
  match c.rest with
  | t :: _ => t.start
  | [] => c.past

/-- What came of reading a phrase. -/
inductive Outcome where
  | matched (nodes : List Node) (after : Cursor)
  | refused
  /-- A committed phrase that begins at this offset did not match. -/
  | malformed (offset : Nat)

/-- The cursor after single characters that touch each other. -/
def Cursor.takeGlyphs (c : Cursor) : List Char → Option Cursor
  | [] => some c
  | g :: gs =>
    match c.rest with
    | t :: rest =>
      if t.lexeme == .glyph g then
        match gs, rest with
        | [], _ => some ⟨t.stop, rest⟩
        | _ :: _, u :: _ => if u.start == t.stop then takeGlyphs ⟨t.stop, rest⟩ gs else none
        | _ :: _, [] => none
      else none
    | [] => none

/-- Reads a phrase from a place on, with at most `depth` calls inside each other. -/
def read {σ : Type} (grammar : σ → Phrase σ) : (depth : Nat) → Phrase σ → Cursor → Outcome
  | 0, _, c => .malformed c.next
  | depth + 1, phrase, c =>
    match phrase with
    | .nothing => .matched [] c
    | .token test =>
      match c.rest with
      | t :: rest => if test.accepts t then .matched [] ⟨t.stop, rest⟩ else .refused
      | [] => .refused
    | .glyphs gs =>
      match c.takeGlyphs gs with
      | some after => .matched [] after
      | none => .refused
    | .seq first second =>
      match read grammar depth first c with
      | .matched ns after =>
        match read grammar depth second after with
        | .matched ms after => .matched (ns ++ ms) after
        | .refused => .refused
        | .malformed offset => .malformed offset
      | .refused => .refused
      | .malformed offset => .malformed offset
    | .alt first second =>
      match read grammar depth first c with
      | .matched ns after => .matched ns after
      | .refused => read grammar depth second c
      | .malformed offset => .malformed offset
    | .many body =>
      match read grammar depth body c with
      | .matched ns after =>
        match read grammar depth (.many body) after with
        | .matched ms after => .matched (ns ++ ms) after
        | .refused => .refused
        | .malformed offset => .malformed offset
      | .refused => .matched [] c
      | .malformed offset => .malformed offset
    | .ahead body =>
      match read grammar depth body c with
      | .matched _ _ => .matched [] c
      | .refused => .refused
      | .malformed offset => .malformed offset
    | .unless body =>
      match read grammar depth body c with
      | .matched _ _ => .refused
      | .refused => .matched [] c
      | .malformed offset => .malformed offset
    | .commit body =>
      match read grammar depth body c with
      | .matched ns after => .matched ns after
      | .refused => .malformed c.next
      | .malformed offset => .malformed offset
    | .node kind role body =>
      match read grammar depth body c with
      | .matched ns after =>
        .matched [.marked kind c.next after.past role false ns] after
      | .refused => .refused
      | .malformed offset => .malformed offset
    | .symbol s => read grammar depth (grammar s) c

/-! ### Common phrases -/

namespace Phrase

variable {σ : Type}

/-- A sequence of phrases. -/
def all : List (Phrase σ) → Phrase σ
  | [] => .nothing
  | [p] => p
  | p :: ps => .seq p (all ps)

/-- The first of several phrases that matches. -/
def oneOf : List (Phrase σ) → Phrase σ
  | [] => .unless .nothing
  | [p] => p
  | p :: ps => .alt p (oneOf ps)

/-- The phrase, or nothing. -/
def opt (p : Phrase σ) : Phrase σ := .alt p .nothing

/-- The phrase at least once. -/
def some (p : Phrase σ) : Phrase σ := .seq p (.many p)

/-- A word. -/
def word (text : String) : Phrase σ := .token (.word text)

/-- Any word but the given ones. -/
def name (keywords : List String) : Phrase σ := .token (.name keywords)

/-- An operator: single characters with nothing between them. -/
def op (text : String) : Phrase σ := .glyphs text.toList

/-- One of several operators. -/
def ops (texts : List String) : Phrase σ := oneOf (texts.map op)

/-- The phrase once or more, with separators between. -/
def sepBy1 (separator p : Phrase σ) : Phrase σ := .seq p (.many (.seq separator p))

/-- The phrase any number of times with commas between, and perhaps a comma at the end. -/
def list (p : Phrase σ) : Phrase σ := .seq (opt (sepBy1 (op ",") p)) (opt (op ","))

/-- The phrase once or more with commas between, and perhaps a comma at the end. -/
def list1 (p : Phrase σ) : Phrase σ := .seq (sepBy1 (op ",") p) (opt (op ","))

/-- The phrase between two delimiters, and nothing else once the first has been seen. -/
def enclosed (left : String) (p : Phrase σ) (right : String) : Phrase σ :=
  .seq (op left) (.commit (.seq p (op right)))

end Phrase

end Tighten.Rust
