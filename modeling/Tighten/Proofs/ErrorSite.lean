import Tighten.Proofs.Reachability
import Tighten.Rust.Parse

/-
The search for an error finds the first one.

A fault is an error or something the source lacks.  The search for one goes down into the first
child that is marked as containing an error, and gives the other children up.  In a tree whose marks
are true nothing is lost by that: an unmarked child holds no fault, so the children passed over hold
none, and a marked one holds at least one, so the search never has to come back.

The order in which faults come is that of their addresses.  `preorder` lists all nodes of a tree in
this order, and the search is compared with a search through the list.
-/
namespace Tighten.Syntax

open Discovery (Enumerates)

/-! ### Faults by their addresses -/

/-- The fault before all others of a tree. -/
structure Node.FirstFault (root : Node) (p : List Nat) (n : Node) : Prop where
  node : root.at? p = some n
  fault : n.isFault = true
  first : ∀ q < p, ∀ m, root.at? q = some m → m.isFault = false

theorem Node.FirstFault.unique {root n m : Node} {p q : List Nat} (hp : root.FirstFault p n)
    (hq : root.FirstFault q m) : p = q ∧ n = m := by
  have hpq : p = q := by
    rcases lt_trichotomy p q with hlt | heq | hgt
    · exact absurd hp.fault (ne_true_of_eq_false (hq.first p hlt n hp.node))
    · exact heq
    · exact absurd hq.fault (ne_true_of_eq_false (hp.first q hgt m hq.node))
  subst hpq
  exact ⟨rfl, Option.some.inj (hp.node.symm.trans hq.node)⟩

/-- A tree without faults. -/
def Node.Faultless (root : Node) : Prop :=
  ∀ p n, root.at? p = some n → n.isFault = false

/-- A tree in which a node is marked exactly if it is a fault or one of its children is marked. -/
def FlaggedTree (root : Node) : Prop :=
  ∀ n, Within root n → (n.hasError = true ↔ n.isFault = true ∨ ∃ c ∈ n.children, c.hasError = true)

namespace FlaggedTree

variable {root c : Node}

theorem child (h : FlaggedTree root) (hc : c ∈ root.children) : FlaggedTree c :=
  fun n hn => h n (.trans (.child .self hc) hn)

/-- The marks of a tree are those of its root and of the trees below it. -/
theorem of_children
    (hroot : root.hasError = true ↔ root.isFault = true ∨ ∃ c ∈ root.children, c.hasError = true)
    (h : ∀ c ∈ root.children, FlaggedTree c) : FlaggedTree root := by
  intro n hn
  rcases hn.cases_child with rfl | ⟨c, hc, hn⟩
  · exact hroot
  · exact h c hc n hn

theorem marked {k : Kind} {s e : Nat} {r : Role} {m : Bool} {cs : List Node}
    (h : ∀ c ∈ cs, FlaggedTree c) : FlaggedTree (.marked k s e r m cs) := by
  refine of_children ?_ h
  simp only [Node.marked, Node.hasError, Node.isFault, Node.kind, Node.isMissing, Node.children,
    Bool.or_eq_true, List.any_eq_true, or_comm]

end FlaggedTree

/-! ### All nodes in order -/

mutual

/-- The nodes of a tree, each before what is below it, and what is below a child before the next
child. -/
def Node.preorder : Node → List Node
  | .mk k s e r m f cs => .mk k s e r m f cs :: preorderAll cs

/-- The nodes of several trees, one tree after the other. -/
def preorderAll : List Node → List Node
  | [] => []
  | c :: rest => c.preorder ++ preorderAll rest

end

theorem preorderAll_eq (cs : List Node) : preorderAll cs = cs.flatMap Node.preorder := by
  induction cs with
  | nil => rfl
  | cons c cs ih => rw [preorderAll, ih, List.flatMap_cons]

mutual

/-- The list has every node once, in the order of the addresses. -/
theorem enumerates_preorder : ∀ n : Node, Enumerates (fun p d => n.at? p = some d) n.preorder
  | .mk k s e r m f cs => by
      have hchildren := Enumerates.children cs 0 (enumerates_preorderAll cs)
      simp only [Nat.zero_add, ← preorderAll_eq] at hchildren
      rw [Node.preorder]
      refine (hchildren.cons ?_ (.mk k s e r m f cs)).congr fun p d => ?_
      · rintro p d ⟨i, q, c, rfl, -, -⟩
        exact List.cons_ne_nil i q
      · cases p with
        | nil => simp [Node.at?, eq_comm]
        | cons i q => cases hc : cs[i]? <;> simp [Node.at?, Node.children, hc]

theorem enumerates_preorderAll : ∀ cs : List Node,
    ∀ c ∈ cs, Enumerates (fun p d => c.at? p = some d) c.preorder
  | [] => fun c hc => absurd hc List.not_mem_nil
  | n :: rest => by
      intro c hc
      rcases List.mem_cons.mp hc with heq | hc
      · rw [heq]
        exact enumerates_preorder n
      · exact enumerates_preorderAll rest c hc

end

/-- The first node of a list to pass a test has the first address. -/
theorem exists_first_of_find? {R : List Nat → Node → Prop} {ds : List Node} {test : Node → Bool}
    {n : Node} (h : Enumerates R ds) (hfind : ds.find? test = some n) :
    ∃ p, R p n ∧ ∀ q < p, ∀ m, R q m → test m = false := by
  obtain ⟨found, rfl, horder, hmem⟩ := h
  rw [List.find?_map, Option.map_eq_some_iff] at hfind
  obtain ⟨⟨p, d⟩, hfound, rfl⟩ := hfind
  obtain ⟨-, front, back, rfl, hfront⟩ := List.find?_eq_some_iff_append.mp hfound
  refine ⟨p, (hmem p d).mp (by simp), ?_⟩
  intro q hq m hm
  rcases List.mem_append.mp ((hmem q m).mpr hm) with hbefore | hafter
  · simpa using hfront _ hbefore
  · -- nothing from the node on has an earlier address
    obtain ⟨hback, -⟩ := List.pairwise_cons.mp (List.pairwise_append.mp horder).2.1
    rcases List.mem_cons.mp hafter with heq | hafter
    · obtain ⟨rfl, rfl⟩ := Prod.mk.inj heq
      exact absurd hq (List.lt_irrefl _)
    · exact absurd (hback _ hafter) (List.lt_asymm hq)

theorem exists_firstFault {root n : Node} (h : root.preorder.find? Node.isFault = some n) :
    ∃ p, root.FirstFault p n := by
  obtain ⟨p, hp, hfirst⟩ := exists_first_of_find? (enumerates_preorder root) h
  exact ⟨p, hp, List.find?_some h, hfirst⟩

theorem faultless_iff {root : Node} :
    root.Faultless ↔ root.preorder.find? Node.isFault = none := by
  obtain ⟨found, hlist, -, hmem⟩ := enumerates_preorder root
  rw [List.find?_eq_none, ← hlist]
  constructor
  · intro h n hn
    obtain ⟨⟨p, d⟩, hx, rfl⟩ := List.mem_map.mp hn
    simp [h p d ((hmem p d).mp hx)]
  · intro h p n hp
    simpa using h n (List.mem_map.mpr ⟨(p, n), (hmem p n).mpr hp, rfl⟩)

/-! ### The search -/

mutual

/-- A tree with true marks is marked where it holds a fault. -/
theorem isSome_find?_preorder : ∀ n : Node, FlaggedTree n →
    (n.preorder.find? Node.isFault).isSome = n.hasError
  | .mk k s e r m f cs => by
      intro h
      have hroot := h _ .self
      have hchildren := isSome_find?_preorderAll cs fun c hc => h.child hc
      rw [Node.preorder, List.find?_cons]
      cases hfault : (Node.mk k s e r m f cs).isFault with
      | true => simpa using (hroot.mpr (Or.inl hfault)).symm
      | false =>
          rw [Bool.eq_iff_iff, hroot, hfault]
          exact hchildren.trans (or_iff_right Bool.false_ne_true).symm

theorem isSome_find?_preorderAll : ∀ cs : List Node, (∀ c ∈ cs, FlaggedTree c) →
    (((preorderAll cs).find? Node.isFault).isSome = true ↔ ∃ c ∈ cs, c.hasError = true)
  | [] => fun _ => by simp [preorderAll]
  | c :: rest => by
      intro h
      have hfirst := isSome_find?_preorder c (h c List.mem_cons_self)
      have hothers := isSome_find?_preorderAll rest fun d hd => h d (List.mem_cons_of_mem c hd)
      rw [preorderAll, List.find?_append, Option.isSome_or, Bool.or_eq_true, hothers, hfirst]
      simp

end

mutual

/-- The search that never comes back finds what a search through all nodes finds. -/
theorem firstFault?_eq : ∀ n : Node, FlaggedTree n →
    n.firstFault? = n.preorder.find? Node.isFault
  | .mk k s e r m f cs => by
      intro h
      have hchildren := firstFaultAmong?_eq cs fun c hc => h.child hc
      rw [Node.firstFault?, Node.preorder, List.find?_cons, hchildren]
      cases hfault : (Node.mk k s e r m f cs).isFault with
      | true => exact if_pos hfault
      | false => exact if_neg (ne_true_of_eq_false hfault)

theorem firstFaultAmong?_eq : ∀ cs : List Node, (∀ c ∈ cs, FlaggedTree c) →
    firstFaultAmong? cs = (preorderAll cs).find? Node.isFault
  | [] => fun _ => rfl
  | c :: rest => by
      intro h
      have hc := h c List.mem_cons_self
      have hmark := isSome_find?_preorder c hc
      rw [firstFaultAmong?, preorderAll, List.find?_append]
      cases herror : c.hasError with
      | true =>
          -- a marked child holds a fault, which comes before those of the others
          obtain ⟨n, hn⟩ := Option.isSome_iff_exists.mp (hmark.trans herror)
          rw [if_pos rfl, firstFault?_eq c hc, hn, Option.some_or]
      | false =>
          rw [herror, Option.isSome_eq_false_iff, Option.isNone_iff_eq_none] at hmark
          rw [hmark, Option.none_or]
          exact firstFaultAmong?_eq rest fun d hd => h d (List.mem_cons_of_mem c hd)

end

theorem describeFault_ne (source : List UInt8) (n : Node) :
    describeFault source (some n) ≠ "unknown location" := by
  intro h
  have hhead : (describeFault source (some n)).toList.head? = some 'l' := by
    simp [describeFault, toString]
  rw [h] at hhead
  exact absurd hhead (by decide)

/-- **The search finds the first fault.**  In a tree with true marks, a fault anywhere means that
there is a first one, and its line and byte column are what the search names; the place is unknown
only where there is no fault.  So a text is refused, with the place, exactly if its tree has a
fault. -/
theorem errorSite_first (source : List UInt8) {root : Node} (h : FlaggedTree root) :
    (¬root.Faultless → ∃ p n, root.FirstFault p n ∧
      ∀ row column, Point.ofOffset source n.start = ⟨row, column⟩ →
        errorSite source root = s!"line {row + 1}, byte column {column + 1}") ∧
    (errorSite source root = "unknown location" ↔ root.Faultless) ∧
    (accept source root = .error ⟨errorSite source root⟩ ↔ ¬root.Faultless) := by
  have hsearch := firstFault?_eq root h
  have hmark := isSome_find?_preorder root h
  rw [faultless_iff, ← hsearch]
  rw [← hsearch] at hmark
  refine ⟨?_, ?_, ?_⟩
  · intro hsome
    obtain ⟨n, hn⟩ := Option.ne_none_iff_exists'.mp hsome
    obtain ⟨p, hp⟩ := exists_firstFault (hsearch.symm.trans hn)
    refine ⟨p, n, hp, ?_⟩
    intro row column hpoint
    rw [errorSite, hn, describeFault, hpoint]
  · unfold errorSite
    cases root.firstFault? with
    | none => exact iff_of_true rfl rfl
    | some n => exact iff_of_false (describeFault_ne source n) (Option.some_ne_none n)
  · unfold accept
    rw [← hmark]
    cases root.firstFault? with
    | none => simp
    | some n => simp

/-- The end that a declaration lacks. -/
def missingEnd : Node := .marked (.other ";") 18 18 .none true []

/-- A tree with a sound declaration, then one that lacks its end, then an error. -/
def twoFaults : Node :=
  .marked (.other "source_file") 0 24 .none false
    [.marked .functionItem 0 9 .none false [.marked .block 7 9 .none false []],
      .marked .structItem 10 18 .none false
        [.marked (.other "type_identifier") 17 18 .none false [], missingEnd],
      .marked .error 19 24 .none false []]

theorem twoFaults_flaggedTree : FlaggedTree twoFaults := by
  have hleaf : ∀ {k s e r m}, FlaggedTree (.marked k s e r m []) :=
    .marked fun c hc => absurd hc List.not_mem_nil
  refine .marked ?_
  simp only [List.forall_mem_cons, List.not_mem_nil, false_implies, implies_true, and_true]
  refine ⟨.marked ?_, .marked ?_, hleaf⟩
  · simpa using hleaf
  · simpa using ⟨hleaf, hleaf⟩

/-- The missing end comes before the error, and its place is named. -/
theorem errorSite_first_twoFaults :
    FlaggedTree twoFaults ∧ ¬twoFaults.Faultless ∧ (∃ p, twoFaults.FirstFault p missingEnd) ∧
      errorSite (Text.Utf8.encode "fn f() {}\nstruct S\n)))))".toList) twoFaults =
        "line 2, byte column 9" := by
  have hfaults : ¬twoFaults.Faultless := fun h => absurd (h [2] _ rfl) (by decide)
  have hfind : twoFaults.preorder.find? Node.isFault = some missingEnd := rfl
  obtain ⟨q, hq⟩ := exists_firstFault hfind
  obtain ⟨hfirst, -⟩ := errorSite_first (Text.Utf8.encode "fn f() {}\nstruct S\n)))))".toList)
    twoFaults_flaggedTree
  obtain ⟨p, n, hn, hsite⟩ := hfirst hfaults
  obtain ⟨-, rfl⟩ := hn.unique hq
  exact ⟨twoFaults_flaggedTree, hfaults, ⟨q, hq⟩, hsite 1 8 (by decide +kernel)⟩

end Tighten.Syntax
