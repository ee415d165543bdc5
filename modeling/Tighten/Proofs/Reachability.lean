import Mathlib.Data.List.Forall2
import Tighten.Proofs.Narrowing

/-
Which declarations the walk visits.

A node is found again by its address, the indices of the children on the way down from the root.
Addresses tell nodes apart that are equal as trees, and their lexicographic order is the order of
reading: a node comes before what is inside it, and what is inside a child before the next child.

`Reaches` says which declarations there are to visit, without regard to how the walk goes about it.
The way down leads through nodes that have no rule and are not passed over, and ends with a chain:
a declaration, or a declaration and a field in its body, or the last part of such a chain.  The walk
visits exactly these, each once, in the order of their addresses.

The proof follows the rules.  `Enumerates` relates a list of nodes to a set of addresses, and there
is one lemma for each way in which the walk puts lists together.
-/
namespace Tighten

open Syntax Text.Utf8

namespace Syntax

/-! ### Addresses -/

/-- The node at an address. -/
def Node.at? : Node → List Nat → Option Node
  | n, [] => some n
  | n, i :: rest =>
    match n.children[i]? with
    | some c => c.at? rest
    | none => none

/-- The first child that passes a test, and its index. -/
structure Node.FirstChild (test : Node → Bool) (n : Node) (i : Nat) (c : Node) : Prop where
  child : n.children[i]? = some c
  passes : test c = true
  first : ∀ j < i, ∀ d, n.children[j]? = some d → test d = false

theorem Node.at?_cons {n c : Node} {i : Nat} (h : n.children[i]? = some c) (rest : List Nat) :
    n.at? (i :: rest) = c.at? rest := by
  simp only [Node.at?, h]

theorem Node.find?_eq_some_iff {test : Node → Bool} {n c : Node} :
    n.children.find? test = some c ↔ ∃ i, n.FirstChild test i c := by
  rw [List.find?_eq_some_iff_getElem]
  constructor
  · rintro ⟨hpasses, i, hi, rfl, hfirst⟩
    refine ⟨i, List.getElem?_eq_getElem hi, hpasses, ?_⟩
    intro j hj d hd
    obtain ⟨hlt, rfl⟩ := List.getElem?_eq_some_iff.mp hd
    simpa using hfirst j hj
  · rintro ⟨i, hchild, hpasses, hfirst⟩
    obtain ⟨hi, rfl⟩ := List.getElem?_eq_some_iff.mp hchild
    refine ⟨hpasses, i, hi, rfl, ?_⟩
    intro j hj
    simpa using hfirst j hj _ (List.getElem?_eq_getElem (Nat.lt_trans hj hi))

theorem Node.FirstChild.index_unique {test : Node → Bool} {n c d : Node} {i j : Nat}
    (hc : n.FirstChild test i c) (hd : n.FirstChild test j d) : i = j := by
  rcases Nat.lt_trichotomy i j with hlt | heq | hgt
  · have hpasses := hc.passes
    rw [hd.first i hlt c hc.child] at hpasses
    cases hpasses
  · exact heq
  · have hpasses := hd.passes
    rw [hc.first j hgt d hd.child] at hpasses
    cases hpasses

/-- Whether a node is a body. -/
def Node.isBody (n : Node) : Bool :=
  n.role == .body

/-- The kinds with a rule of their own. -/
def Kind.ruled : List Kind :=
  [.structItem, .unionItem, .functionItem, .enumItem, .enumVariant, .fieldList, .field]

/-- The kinds that are passed over with all that is inside. -/
def Kind.closed : List Kind :=
  [.implItem, .traitItem, .block, .macroCall, .macroDefinition]

/-- The kinds of declarations that can have a modifier to narrow. -/
def Kind.declaring : List Kind :=
  [.structItem, .unionItem, .functionItem, .enumItem, .field]

end Syntax

namespace Discovery

/-! ### What there is to visit -/

/-- A field in a list of fields. -/
inductive ListField (list : Node) : List Nat → Node → Prop
  | field {j : Nat} {f : Node} (hlist : list.kind = .fieldList) (hf : list.children[j]? = some f)
      (hkind : f.kind = .field) : ListField list [j] f

/-- A field in the body of a node, where the first body is a list of fields. -/
inductive BodyField (n : Node) : List Nat → Node → Prop
  | inside {i : Nat} {p : List Nat} {b f : Node} (hb : n.FirstChild Node.isBody i b)
      (hf : ListField b p f) : BodyField n (i :: p) f

/-- A field of a variant in the body of a node. -/
inductive VariantField (n : Node) : List Nat → Node → Prop
  | inside {i j : Nat} {p : List Nat} {b v f : Node} (hb : n.FirstChild Node.isBody i b)
      (hv : b.children[j]? = some v) (hvariant : v.kind = .enumVariant) (hf : BodyField v p f) :
      VariantField n (i :: j :: p) f

/-- The chains that begin with a node and end with a declaration. -/
inductive Chain (n : Node) : List Nat → Node → Prop
  | itself (hkind : n.kind ∈ Kind.declaring) : Chain n [] n
  | aggregate {p : List Nat} {f : Node} (hkind : n.kind = .structItem ∨ n.kind = .unionItem)
      (hf : BodyField n p f) : Chain n p f
  | enumeration {p : List Nat} {f : Node} (hkind : n.kind = .enumItem) (hf : VariantField n p f) :
      Chain n p f
  | variant {p : List Nat} {f : Node} (hkind : n.kind = .enumVariant) (hf : BodyField n p f) :
      Chain n p f
  | list {p : List Nat} {f : Node} (hf : ListField n p f) : Chain n p f

/-- The declarations to visit below a node, by their addresses. -/
inductive Reaches : Node → List Nat → Node → Prop
  | chain {n d : Node} {p : List Nat} (h : Chain n p d) : Reaches n p d
  | through {n c d : Node} {i : Nat} {p : List Nat} (hrule : n.kind ∉ Kind.ruled)
      (hopen : n.kind ∉ Kind.closed) (hc : n.children[i]? = some c) (h : Reaches c p d) :
      Reaches n (i :: p) d

section Addresses

variable {n d : Node} {p : List Nat}

theorem ListField.at? (h : ListField n p d) : n.at? p = some d := by
  obtain ⟨-, hf, -⟩ := h
  exact Node.at?_cons hf []

theorem BodyField.at? (h : BodyField n p d) : n.at? p = some d := by
  obtain ⟨hb, hf⟩ := h
  rw [Node.at?_cons hb.child]
  exact hf.at?

theorem VariantField.at? (h : VariantField n p d) : n.at? p = some d := by
  obtain ⟨hb, hv, -, hf⟩ := h
  rw [Node.at?_cons hb.child, Node.at?_cons hv]
  exact hf.at?

theorem Chain.at? (h : Chain n p d) : n.at? p = some d := by
  cases h with
  | itself hkind => rfl
  | aggregate hkind hf => exact hf.at?
  | enumeration hkind hf => exact hf.at?
  | variant hkind hf => exact hf.at?
  | list hf => exact hf.at?

theorem Reaches.at? (h : Reaches n p d) : n.at? p = some d := by
  induction h with
  | chain h => exact h.at?
  | through hrule hopen hc h ih =>
      rw [Node.at?_cons hc]
      exact ih

theorem BodyField.kind (h : BodyField n p d) : d.kind = .field := by
  obtain ⟨-, -, -, hkind⟩ := h
  exact hkind

theorem VariantField.kind (h : VariantField n p d) : d.kind = .field := by
  obtain ⟨-, -, -, hf⟩ := h
  exact hf.kind

theorem Chain.kind (h : Chain n p d) : d.kind ∈ Kind.declaring := by
  have hfield : Kind.field ∈ Kind.declaring := by decide
  cases h with
  | itself hkind => exact hkind
  | aggregate hkind hf => rwa [hf.kind]
  | enumeration hkind hf => rwa [hf.kind]
  | variant hkind hf => rwa [hf.kind]
  | list hf =>
      obtain ⟨-, -, hkind⟩ := hf
      rwa [hkind]

theorem Reaches.kind (h : Reaches n p d) : d.kind ∈ Kind.declaring := by
  induction h with
  | chain h => exact h.kind
  | through hrule hopen hc h ih => exact ih

end Addresses

/-! ### Lists of addressed nodes -/

/-- The list goes through the nodes of a set, each once, in the order of their addresses. -/
def Enumerates (R : List Nat → Node → Prop) (ds : List Node) : Prop :=
  ∃ found : List (List Nat × Node), found.map Prod.snd = ds ∧
    found.Pairwise (fun x y => x.1 < y.1) ∧ ∀ p d, (p, d) ∈ found ↔ R p d

namespace Enumerates

variable {R S : List Nat → Node → Prop} {ds es : List Node}

theorem congr (h : Enumerates R ds) (hRS : ∀ p d, R p d ↔ S p d) : Enumerates S ds := by
  obtain ⟨found, hlist, horder, hmem⟩ := h
  exact ⟨found, hlist, horder, fun p d => (hmem p d).trans (hRS p d)⟩

theorem nil (h : ∀ p d, ¬ R p d) : Enumerates R [] :=
  ⟨[], rfl, List.Pairwise.nil, fun p d => by simp [h p d]⟩

theorem single (n : Node) : Enumerates (fun p d => p = [] ∧ d = n) [n] :=
  ⟨[([], n)], rfl, List.pairwise_singleton _ _, fun p d => by simp⟩

/-- One list after another, where all addresses of the one come before those of the other. -/
theorem append (hR : Enumerates R ds) (hS : Enumerates S es)
    (hlt : ∀ p d q e, R p d → S q e → p < q) :
    Enumerates (fun p d => R p d ∨ S p d) (ds ++ es) := by
  obtain ⟨found, rfl, horder, hmem⟩ := hR
  obtain ⟨found', rfl, horder', hmem'⟩ := hS
  refine ⟨found ++ found', List.map_append, ?_, ?_⟩
  · refine List.pairwise_append.mpr ⟨horder, horder', ?_⟩
    rintro ⟨p, d⟩ hx ⟨q, e⟩ hy
    exact hlt p d q e ((hmem p d).mp hx) ((hmem' q e).mp hy)
  · intro p d
    rw [List.mem_append, hmem, hmem']

/-- What is inside a child has the child's index in front. -/
theorem below (h : Enumerates R ds) (i : Nat) :
    Enumerates (fun p d => ∃ q, p = i :: q ∧ R q d) ds := by
  obtain ⟨found, rfl, horder, hmem⟩ := h
  refine ⟨found.map fun x => (i :: x.1, x.2), ?_, ?_, ?_⟩
  · rw [List.map_map]
    rfl
  · rw [List.pairwise_map]
    exact horder.imp fun hlt => List.cons_lt_cons_iff.mpr (Or.inr ⟨rfl, hlt⟩)
  · intro p d
    rw [List.mem_map]
    constructor
    · rintro ⟨⟨q, e⟩, hx, heq⟩
      obtain ⟨rfl, rfl⟩ := Prod.mk.inj heq
      exact ⟨q, rfl, (hmem q e).mp hx⟩
    · rintro ⟨q, rfl, hq⟩
      exact ⟨(q, d), (hmem q d).mpr hq, rfl⟩

/-- The lists of all children, one after the other. -/
theorem children {f : Node → List Node} {T : Node → List Nat → Node → Prop} (cs : List Node) :
    ∀ start : Nat, (∀ c ∈ cs, Enumerates (T c) (f c)) →
      Enumerates (fun p d => ∃ i q c, p = (start + i) :: q ∧ cs[i]? = some c ∧ T c q d)
        (cs.flatMap f) := by
  induction cs with
  | nil =>
      intro start _
      exact nil fun p d => by simp
  | cons c cs ih =>
      intro start h
      have hfirst := (h c List.mem_cons_self).below start
      have hothers := ih (start + 1) fun e he => h e (List.mem_cons_of_mem c he)
      rw [List.flatMap_cons]
      refine (hfirst.append hothers ?_).congr ?_
      · rintro _ d _ e ⟨q, rfl, -⟩ ⟨i, r, c', rfl, -, -⟩
        exact List.cons_lt_cons_iff.mpr (Or.inl (by omega))
      · intro p d
        constructor
        · rintro (⟨q, rfl, hq⟩ | ⟨i, q, c', rfl, hc', hq⟩)
          · exact ⟨0, q, c, rfl, rfl, hq⟩
          · exact ⟨i + 1, q, c', by rw [Nat.add_assoc, Nat.add_comm 1], hc', hq⟩
        · rintro ⟨i, q, c', rfl, hc', hq⟩
          cases i with
          | zero =>
              obtain rfl := Option.some.inj hc'
              exact Or.inl ⟨q, rfl, hq⟩
          | succ i =>
              exact Or.inr ⟨i, q, c', by rw [Nat.add_assoc, Nat.add_comm 1], hc', hq⟩

/-- The lists of the children that pass a test. -/
theorem filtered {f : Node → List Node} {T : Node → List Nat → Node → Prop} (test : Node → Bool)
    (cs : List Node) (h : ∀ c, test c = true → Enumerates (T c) (f c)) :
    Enumerates (fun p d => ∃ i q c, p = i :: q ∧ cs[i]? = some c ∧ test c = true ∧ T c q d)
      ((cs.filter test).flatMap f) := by
  have hall : ∀ c ∈ cs, Enumerates (fun q d => test c = true ∧ T c q d)
      (if test c = true then f c else []) := by
    intro c _
    by_cases hc : test c = true
    · rw [if_pos hc]
      exact (h c hc).congr fun q d => (and_iff_right hc).symm
    · rw [if_neg hc]
      exact nil fun q d hq => hc hq.1
  have hflat : (cs.filter test).flatMap f = cs.flatMap fun c => if test c = true then f c else [] := by
    induction cs with
    | nil => rfl
    | cons c cs ih =>
        have ih := ih fun e he => hall e (List.mem_cons_of_mem c he)
        by_cases hc : test c = true <;> simp [hc, ih]
  have hchildren := children cs 0 hall
  simp only [Nat.zero_add] at hchildren
  rwa [hflat]

/-- The list of the body. -/
theorem body {g : Option Node → List Node} {T : Node → List Nat → Node → Prop} (n : Node)
    (hnone : g none = []) (hsome : ∀ b, Enumerates (T b) (g (some b))) :
    Enumerates (fun p d => ∃ i q b, p = i :: q ∧ n.FirstChild Node.isBody i b ∧ T b q d)
      (g n.body?) := by
  cases hb : n.body? with
  | none =>
      rw [hnone]
      refine nil ?_
      rintro p d ⟨i, q, b, -, hfirst, -⟩
      have hsome := Node.find?_eq_some_iff.mpr ⟨i, hfirst⟩
      rw [Node.body?] at hb
      cases hb.symm.trans hsome
  | some b =>
      obtain ⟨i, hfirst⟩ := Node.find?_eq_some_iff.mp hb
      refine ((hsome b).below i).congr ?_
      intro p d
      constructor
      · rintro ⟨q, rfl, hq⟩
        exact ⟨i, q, b, rfl, hfirst, hq⟩
      · rintro ⟨j, q, b', rfl, hfirst', hq⟩
        obtain rfl := hfirst.index_unique hfirst'
        obtain rfl := Option.some.inj (hfirst.child.symm.trans hfirst'.child)
        exact ⟨q, rfl, hq⟩

end Enumerates

/-! ### What the walk visits -/

section Rules

variable {n : Node}

theorem enumerates_fieldsIn (h : n.kind = .fieldList) :
    Enumerates (ListField n) (fieldsIn n) := by
  have hfields := Enumerates.filtered (fun c => c.kind == .field) n.children
    fun c _ => Enumerates.single c
  rw [List.flatMap_singleton'] at hfields
  refine hfields.congr ?_
  intro p d
  constructor
  · rintro ⟨i, _, c, rfl, hc, hkind, rfl, rfl⟩
    exact .field h hc (beq_iff_eq.mp hkind)
  · rintro ⟨-, hf, hkind⟩
    exact ⟨_, [], d, rfl, hf, beq_iff_eq.mpr hkind, rfl, rfl⟩

theorem enumerates_fieldsOfBody (n : Node) :
    Enumerates (BodyField n) (fieldsOfBody n.body?) := by
  have hlist : ∀ b, Enumerates (ListField b) (fieldsOfBody (some b)) := by
    intro b
    rw [fieldsOfBody]
    by_cases hb : b.kind = .fieldList
    · rw [if_pos (beq_iff_eq.mpr hb)]
      exact enumerates_fieldsIn hb
    · rw [if_neg (mt beq_iff_eq.mp hb)]
      refine Enumerates.nil ?_
      rintro p d ⟨hlist, -, -⟩
      exact hb hlist
  refine (Enumerates.body n rfl hlist).congr ?_
  intro p d
  constructor
  · rintro ⟨i, q, b, rfl, hb, hf⟩
    exact .inside hb hf
  · rintro ⟨hb, hf⟩
    exact ⟨_, _, _, rfl, hb, hf⟩

theorem enumerates_variants (n : Node) :
    Enumerates (VariantField n)
      ((variantsOfBody n.body?).flatMap fun v => fieldsOfBody v.body?) := by
  have hvariants : ∀ b : Node, Enumerates
      (fun q f => ∃ j r v, q = j :: r ∧ b.children[j]? = some v ∧
        (v.kind == .enumVariant) = true ∧ BodyField v r f)
      ((variantsOfBody (some b)).flatMap fun v => fieldsOfBody v.body?) := by
    intro b
    exact Enumerates.filtered _ b.children fun v _ => enumerates_fieldsOfBody v
  have hbody := Enumerates.body
    (g := fun body => (variantsOfBody body).flatMap fun v : Node => fieldsOfBody v.body?) n rfl
    hvariants
  refine hbody.congr ?_
  intro p d
  constructor
  · rintro ⟨i, _, b, rfl, hb, j, q, v, rfl, hv, hkind, hf⟩
    exact .inside hb hv (beq_iff_eq.mp hkind) hf
  · rintro ⟨hb, hv, hkind, hf⟩
    exact ⟨_, _, _, rfl, hb, _, _, _, rfl, hv, beq_iff_eq.mpr hkind, hf⟩

/-- A declaration comes before what is inside it. -/
theorem Enumerates.cons {R : List Nat → Node → Prop} {ds : List Node} (h : Enumerates R ds)
    (hinside : ∀ p d, R p d → p ≠ []) (n : Node) :
    Enumerates (fun p d => (p = [] ∧ d = n) ∨ R p d) (n :: ds) := by
  refine (Enumerates.single n).append h ?_
  rintro _ d q e ⟨rfl, -⟩ hR
  obtain ⟨i, q, rfl⟩ := List.exists_cons_of_ne_nil (hinside q e hR)
  exact List.nil_lt_cons i q

theorem BodyField.ne_nil {p : List Nat} {f : Node} (h : BodyField n p f) : p ≠ [] := by
  obtain ⟨-, -⟩ := h
  exact List.cons_ne_nil _ _

theorem VariantField.ne_nil {p : List Nat} {f : Node} (h : VariantField n p f) : p ≠ [] := by
  obtain ⟨-, -, -, -⟩ := h
  exact List.cons_ne_nil _ _

theorem ListField.list_kind {p : List Nat} {f : Node} (h : ListField n p f) :
    n.kind = .fieldList := by
  obtain ⟨hlist, -, -⟩ := h
  exact hlist

/-- The chains that begin with a node, by its kind. -/
theorem chain_iff {p : List Nat} {d : Node} :
    Chain n p d ↔ (n.kind ∈ Kind.declaring ∧ p = [] ∧ d = n) ∨
      ((n.kind = .structItem ∨ n.kind = .unionItem ∨ n.kind = .enumVariant) ∧ BodyField n p d) ∨
      (n.kind = .enumItem ∧ VariantField n p d) ∨ (n.kind = .fieldList ∧ ListField n p d) := by
  constructor
  · intro h
    cases h with
    | itself hkind => exact Or.inl ⟨hkind, rfl, rfl⟩
    | aggregate hkind hf => exact Or.inr (Or.inl ⟨hkind.imp_right Or.inl, hf⟩)
    | enumeration hkind hf => exact Or.inr (Or.inr (Or.inl ⟨hkind, hf⟩))
    | variant hkind hf => exact Or.inr (Or.inl ⟨Or.inr (Or.inr hkind), hf⟩)
    | list hf => exact Or.inr (Or.inr (Or.inr ⟨hf.list_kind, hf⟩))
  · rintro (⟨hkind, rfl, rfl⟩ | ⟨hkind | hkind | hkind, hf⟩ | ⟨hkind, hf⟩ | ⟨-, hf⟩)
    · exact .itself hkind
    · exact .aggregate (Or.inl hkind) hf
    · exact .aggregate (Or.inr hkind) hf
    · exact .variant hkind hf
    · exact .enumeration hkind hf
    · exact .list hf

/-- A node with a rule contributes the ends of its chains. -/
theorem enumerates_contributed (n : Node) : Enumerates (Chain n) (contributed n) := by
  have hfields := enumerates_fieldsOfBody n
  have haggregate := hfields.cons (fun _ _ => BodyField.ne_nil) n
  have hvariants := (enumerates_variants n).cons (fun _ _ => VariantField.ne_nil) n
  unfold contributed
  cases hk : n.kind <;> dsimp only
  case structItem => exact haggregate.congr fun p d => by simp [chain_iff, hk, Kind.declaring]
  case unionItem => exact haggregate.congr fun p d => by simp [chain_iff, hk, Kind.declaring]
  case functionItem =>
    exact (Enumerates.single n).congr fun p d => by simp [chain_iff, hk, Kind.declaring]
  case enumItem => exact hvariants.congr fun p d => by simp [chain_iff, hk, Kind.declaring]
  case enumVariant => exact hfields.congr fun p d => by simp [chain_iff, hk, Kind.declaring]
  case fieldList =>
    exact (enumerates_fieldsIn hk).congr fun p d => by simp [chain_iff, hk, Kind.declaring]
  case field =>
    exact (Enumerates.single n).congr fun p d => by simp [chain_iff, hk, Kind.declaring]
  all_goals exact Enumerates.nil fun p d => by simp [chain_iff, hk, Kind.declaring]

/-- Only a node with a rule begins a chain. -/
theorem Chain.ruled {p : List Nat} {d : Node} (h : Chain n p d) : n.kind ∈ Kind.ruled := by
  cases h with
  | itself hkind => exact (by decide : ∀ k ∈ Kind.declaring, k ∈ Kind.ruled) _ hkind
  | aggregate hkind hf => rcases hkind with hkind | hkind <;> rw [hkind] <;> decide
  | enumeration hkind hf => rw [hkind]; decide
  | variant hkind hf => rw [hkind]; decide
  | list hf => rw [hf.list_kind]; decide

end Rules

theorem mem_ruled_of_rule {k : Kind} {step : List UInt8 → Node → Except WalkError (List Edit)}
    (h : treatment k = .rule step) : k ∈ Kind.ruled := by
  cases k <;> simp [treatment, Kind.ruled] at h ⊢

theorem mem_closed_of_skip {k : Kind} (h : treatment k = .skip) :
    k ∉ Kind.ruled ∧ k ∈ Kind.closed := by
  cases k <;> simp [treatment, Kind.ruled, Kind.closed] at h ⊢

theorem open_of_descend {k : Kind} (h : treatment k = .descend) :
    k ∉ Kind.ruled ∧ k ∉ Kind.closed := by
  cases k <;> simp [treatment, Kind.ruled, Kind.closed] at h ⊢

mutual

/-- The walk visits the declarations that there are to visit, each once, in order. -/
theorem enumerates_declared : ∀ n : Node, Enumerates (Reaches n) (declared n)
  | .mk k s e r m f cs => by
      rw [declared]
      cases ht : treatment k with
      | rule step =>
          have hrule := mem_ruled_of_rule ht
          refine (enumerates_contributed (.mk k s e r m f cs)).congr fun p d => ⟨.chain, ?_⟩
          intro h
          cases h with
          | chain h => exact h
          | through hnot hopen hc h => exact absurd hrule hnot
      | skip =>
          obtain ⟨hrule, hclosed⟩ := mem_closed_of_skip ht
          refine Enumerates.nil fun p d h => ?_
          cases h with
          | chain h => exact hrule h.ruled
          | through hnot hopen hc h => exact hopen hclosed
      | descend =>
          obtain ⟨hrule, hopen⟩ := open_of_descend ht
          have hchildren := Enumerates.children cs 0 (enumerates_declaredAll cs)
          simp only [Nat.zero_add, ← declaredAll_eq] at hchildren
          refine hchildren.congr fun p d => ⟨?_, ?_⟩
          · rintro ⟨i, q, c, rfl, hc, h⟩
            exact .through hrule hopen hc h
          · intro h
            cases h with
            | chain h => exact absurd h.ruled hrule
            | through hnot hopen hc h => exact ⟨_, _, _, rfl, hc, h⟩

theorem enumerates_declaredAll : ∀ cs : List Node,
    ∀ c ∈ cs, Enumerates (Reaches c) (declared c)
  | [] => fun c hc => absurd hc List.not_mem_nil
  | n :: rest => by
      intro c hc
      rcases List.mem_cons.mp hc with heq | hc
      · rw [heq]
        exact enumerates_declared n
      · exact enumerates_declaredAll rest c hc

end

/-! ### What the walk yields -/

/-- What a declaration yields: one edit for each narrowing of what its first modifier declares, in
their order, at the span of the modifier; nothing without a modifier. -/
def Yields (source : List UInt8) (d : Node) (es : List Edit) : Prop :=
  match d.modifier? with
  | none => es = []
  | some v => ∃ token, decode (v.bytes source) = .ok token ∧
      es.map Edit.narrowing = (Visibility.ofModifier token).narrowings ∧
      ∀ e ∈ es, Span.ofBytes source v.start v.stop = .ok e.span

variable {source : List UInt8}

theorem narrow_eq_ok_iff {v : Node} {es : List Edit} :
    narrow source (some v) = .ok es ↔ ∃ token, decode (v.bytes source) = .ok token ∧
      es.map Edit.narrowing = (Visibility.ofModifier token).narrowings ∧
      ∀ e ∈ es, Span.ofBytes source v.start v.stop = .ok e.span := by
  simp only [narrow, bind_eq_ok, mapError_eq_ok]
  refine exists_congr fun token => and_congr_right fun _ => ?_
  cases (Visibility.ofModifier token).narrowings with
  | nil =>
      simp only [pure_eq_ok, List.map_eq_nil_iff]
      constructor
      · rintro rfl
        exact ⟨rfl, fun e he => absurd he List.not_mem_nil⟩
      · rintro ⟨rfl, -⟩
        rfl
  | cons way ways =>
      simp only [bind_eq_ok, mapError_eq_ok, pure_eq_ok]
      constructor
      · rintro ⟨span, hspan, rfl⟩
        refine ⟨by simp [Function.comp_def], ?_⟩
        intro e he
        obtain ⟨w, -, rfl⟩ := List.mem_map.mp he
        exact hspan
      · rintro ⟨hways, hspans⟩
        cases es with
        | nil => cases hways
        | cons e es =>
            have hspan := hspans e List.mem_cons_self
            refine ⟨e.span, hspan, ?_⟩
            have hsame : ∀ x ∈ e :: es, (⟨x.narrowing, e.span⟩ : Edit) = x := by
              intro x hx
              rw [Except.ok.inj (hspan.symm.trans (hspans x hx))]
            rw [← hways, List.map_map]
            exact (List.map_congr_left hsame).trans (List.map_id _)

theorem declaration_eq_ok_iff {d : Node} {es : List Edit} :
    declaration source d = .ok es ↔ Yields source d es := by
  unfold declaration Yields
  cases d.modifier? with
  | none => simp [narrow, eq_comm]
  | some v => exact narrow_eq_ok_iff

theorem inTurn_eq_ok_iff {step : Node → Except WalkError (List Edit)} {ns : List Node} :
    ∀ {es : List Edit}, inTurn step ns = .ok es ↔
      ∃ parts, List.Forall₂ (fun n part => step n = .ok part) ns parts ∧ es = parts.flatten := by
  induction ns with
  | nil =>
      intro es
      simp [inTurn, eq_comm]
  | cons n ns ih =>
      intro es
      simp only [inTurn, bind_eq_ok, pure_eq_ok, ih]
      constructor
      · rintro ⟨own, hown, _, ⟨parts, hparts, rfl⟩, rfl⟩
        exact ⟨own :: parts, .cons hown hparts, rfl⟩
      · rintro ⟨_, hparts, rfl⟩
        obtain ⟨own, parts, hown, hrest, rfl⟩ := List.forall₂_cons_left_iff.mp hparts
        exact ⟨own, hown, parts.flatten, ⟨parts, hrest, rfl⟩, rfl⟩

/-- A modifier that covers characters of the text can be read and has a span. -/
theorem exists_yields {text : List Char} {d : Node}
    (h : ∀ v, d.modifier? = some v → ∃ a b, v.Spells text a b) :
    ∃ es, Yields (encode text) d es := by
  simp only [← declaration_eq_ok_iff, declaration]
  cases hv : d.modifier? with
  | none => exact ⟨[], rfl⟩
  | some v =>
      obtain ⟨a, b, hspells⟩ := h v hv
      exact ⟨_, narrow_eq hspells⟩

theorem exists_inTurn {step : Node → Except WalkError (List Edit)} {ns : List Node}
    (h : ∀ n ∈ ns, ∃ es, step n = .ok es) : ∃ es, inTurn step ns = .ok es := by
  choose! found hfound using h
  have hall := inTurn_eq_flatMap (f := id) hfound
  rw [List.map_id] at hall
  exact ⟨_, hall⟩

/-- **The walk is sound, complete and free of repetitions.**  The declarations to visit, put in the
order of their addresses, are what the walk goes through: it yields what the first of them yields,
then what the second yields, and so on to the last.  It comes to an end where each of them yields
something, and that is so in every tree whose modifiers cover characters of the text. -/
theorem walk_visits (source : List UInt8) (root : Node) :
    ∃ found : List (List Nat × Node),
      (∀ p d, (p, d) ∈ found ↔ Reaches root p d) ∧
      found.Pairwise (fun x y => x.1 < y.1) ∧
      (∀ x ∈ found, root.at? x.1 = some x.2 ∧ x.2.kind ∈ Kind.declaring) ∧
      (∀ es, walk source root = .ok es ↔
        ∃ parts, List.Forall₂ (fun x part => Yields source x.2 part) found parts ∧
          es = parts.flatten) ∧
      ∀ text, source = encode text →
        (∀ v, Within root v → v.kind = .visibility → ∃ a b, v.Spells text a b) →
        ∃ es, walk source root = .ok es := by
  obtain ⟨found, hlist, horder, hmem⟩ := enumerates_declared root
  refine ⟨found, hmem, horder, ?_, ?_, ?_⟩
  · rintro ⟨p, d⟩ hx
    have hreaches := (hmem p d).mp hx
    exact ⟨hreaches.at?, hreaches.kind⟩
  · intro es
    rw [walk_eq, ← hlist, inTurn_eq_ok_iff]
    simp only [declaration_eq_ok_iff, List.forall₂_map_left_iff]
  · rintro text rfl hmodifiers
    rw [walk_eq]
    refine exists_inTurn fun d hd => ?_
    simp only [declaration_eq_ok_iff]
    refine exists_yields fun v hv => hmodifiers v ?_ (kind_of_modifier? hv)
    exact .child (within_declared root hd) (mem_of_modifier? hv)

/-- In the split file a `struct` is visited, then a field in its body. -/
theorem walk_visits_splitTree :
    (∃ d, Reaches splitTree [0] d) ∧ (∃ d, Reaches splitTree [0, 1, 0] d) ∧
      ∃ es, walk (encode splitFile.code.toList) splitTree = .ok es := by
  refine ⟨⟨_, .through (by decide) (by decide) rfl (.chain (.itself (by decide)))⟩,
    ⟨_, .through (by decide) (by decide) rfl (.chain (.aggregate (Or.inl rfl)
      (.inside ⟨rfl, by decide, ?_⟩ (.field rfl rfl rfl))))⟩, ?_⟩
  · decide
  · obtain ⟨found, -, -, -, -, hends⟩ := walk_visits (encode splitFile.code.toList) splitTree
    have htree : TreeOver splitFile.code.toList splitTree :=
      treeOver_of_check splitTree (by decide +kernel)
    refine hends _ rfl fun v hv _ => ?_
    obtain ⟨a, b, hab, hb, hstart, hstop⟩ := (htree v hv).stretch
    exact ⟨a, b, hab, hb, hstart, hstop⟩

end Discovery

end Tighten
