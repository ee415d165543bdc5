import Tighten.Discovery
import Tighten.Proofs.Answers
import Tighten.Proofs.Patch
import Tighten.Proofs.Position

/-
What the walk finds, and where.

The walk visits declarations one after the other and takes the edits of each on its own, so its
outcome is that of a list: `declared`.  The modifiers of these declarations are the places that
edits are about.

Where the tree is laid out over the text as trees of a parser are, the modifiers follow each other
without overlap.  This is an argument about nested ranges.  What a node contributes lies in the
node's range, the ranges of its children follow each other, and a declaration's own modifier comes
before the body that the others are in.
-/
namespace Tighten

open Syntax

open Text.Utf8 (encode bytesBefore)

/-! ### Trees over a text -/

/-- The nodes of a tree. -/
inductive Syntax.Within (root : Node) : Node → Prop
  | self : Within root root
  | child {n c : Node} (h : Within root n) (hc : c ∈ n.children) : Within root c

theorem Syntax.Within.trans {root c n : Node} (hc : Within root c) (h : Within c n) :
    Within root n := by
  induction h with
  | self => exact hc
  | child _ hd ih => exact .child ih hd

/-- The kinds of declarations that hold others in their body. -/
def Syntax.Kind.isContainer (k : Kind) : Bool :=
  k == .structItem || k == .unionItem || k == .enumItem

/-- A node that is laid out over a text: it covers a stretch of characters, its children cover
stretches of it one after the other, and a modifier that it has comes before its body. -/
structure Syntax.Node.Placed (text : List Char) (n : Node) : Prop where
  stretch : ∃ a b, a ≤ b ∧ b ≤ text.length ∧
    n.start = bytesBefore text a ∧ n.stop = bytesBefore text b
  inside : ∀ c ∈ n.children, n.start ≤ c.start ∧ c.stop ≤ n.stop
  inOrder : n.children.Pairwise fun c d => c.stop ≤ d.start
  bodyLast : n.kind.isContainer = true → ∀ v b, n.modifier? = some v → n.body? = some b →
    v.stop ≤ b.start

theorem Syntax.Node.Placed.stop_le {text : List Char} {n : Node} (h : n.Placed text) :
    n.stop ≤ (encode text).length := by
  obtain ⟨-, b, -, -, -, hstop⟩ := h.stretch
  rw [hstop]
  exact Text.Utf8.bytesBefore_le text b

/-- A tree that is laid out over a text. -/
def Syntax.TreeOver (text : List Char) (root : Node) : Prop :=
  ∀ n, Within root n → n.Placed text

/-- A node whose children lie inside it one after the other, wherever its range begins and ends,
and which has its modifier before its body. -/
structure Syntax.Node.Nested (n : Node) : Prop where
  inside : ∀ c ∈ n.children, n.start ≤ c.start ∧ c.stop ≤ n.stop
  inOrder : n.children.Pairwise fun c d => c.stop ≤ d.start
  bodyLast : n.kind.isContainer = true → ∀ v b, n.modifier? = some v → n.body? = some b →
    v.stop ≤ b.start

/-- A tree of nested ranges. -/
def Syntax.NestedTree (root : Node) : Prop :=
  ∀ n, Within root n → n.Nested

namespace Syntax.NestedTree

variable {root c : Node}

theorem nested (h : NestedTree root) : root.Nested :=
  h root .self

theorem child (h : NestedTree root) (hc : c ∈ root.children) : NestedTree c :=
  fun n hn => h n (.trans (.child .self hc) hn)

theorem range_le {n : Node} (h : NestedTree root) (hn : Within root n) :
    root.start ≤ n.start ∧ n.stop ≤ root.stop := by
  induction hn with
  | self => exact ⟨Nat.le_refl _, Nat.le_refl _⟩
  | child hm hc ih =>
      have hin := (h _ hm).inside _ hc
      omega

end Syntax.NestedTree

namespace Syntax.TreeOver

variable {text : List Char} {root c : Node}

theorem placed (h : TreeOver text root) : root.Placed text :=
  h root .self

theorem nested (h : TreeOver text root) : NestedTree root :=
  fun n hn => ⟨(h n hn).inside, (h n hn).inOrder, (h n hn).bodyLast⟩

theorem start_le_stop (h : TreeOver text root) : root.start ≤ root.stop := by
  obtain ⟨a, b, hab, -, hstart, hstop⟩ := h.placed.stretch
  rw [hstart, hstop]
  exact Text.Utf8.bytesBefore_mono text hab

theorem child (h : TreeOver text root) (hc : c ∈ root.children) : TreeOver text c :=
  fun n hn => h n (.trans (.child .self hc) hn)

theorem within {n : Node} (h : TreeOver text root) (hn : Within root n) : TreeOver text n :=
  fun m hm => h m (.trans hn hm)

end Syntax.TreeOver

/-! ### Testing a tree

Whether a tree is laid out over a text can be found out by going through its nodes.
-/

/-- Whether a character, or the end of the text, is at an offset. -/
def Text.Utf8.onBoundary (text : List Char) (offset : Nat) : Bool :=
  (List.range (text.length + 1)).any fun a => bytesBefore text a == offset

theorem Text.Utf8.onBoundary_iff {text : List Char} {offset : Nat} :
    onBoundary text offset = true ↔ ∃ k ≤ text.length, bytesBefore text k = offset := by
  simp only [onBoundary, List.any_eq_true, List.mem_range, beq_iff_eq, Nat.lt_succ_iff]

/-- The test for one node. -/
def Syntax.Node.placedCheck (text : List Char) (n : Node) : Bool :=
  Text.Utf8.onBoundary text n.start && Text.Utf8.onBoundary text n.stop &&
    decide (n.start ≤ n.stop) &&
    n.children.all (fun c => decide (n.start ≤ c.start ∧ c.stop ≤ n.stop)) &&
    decide (n.children.Pairwise fun c d => c.stop ≤ d.start) &&
    (!n.kind.isContainer ||
      n.modifier?.all fun v => n.body?.all fun b => decide (v.stop ≤ b.start))

mutual

/-- The test for all nodes of a tree. -/
def Syntax.treeCheck (text : List Char) : Node → Bool
  | .mk k s e r m f cs => Node.placedCheck text (.mk k s e r m f cs) && treeCheckAll text cs

/-- The test for several trees. -/
def Syntax.treeCheckAll (text : List Char) : List Node → Bool
  | [] => true
  | n :: rest => treeCheck text n && treeCheckAll text rest

end

namespace Syntax

theorem placed_of_check {text : List Char} {n : Node} (h : n.placedCheck text = true) :
    n.Placed text := by
  simp only [Node.placedCheck, Bool.and_eq_true, decide_eq_true_eq, List.all_eq_true,
    Bool.or_eq_true, Bool.not_eq_true', Text.Utf8.onBoundary_iff] at h
  obtain ⟨⟨⟨⟨⟨⟨a, ha, hstart⟩, b, hb, hstop⟩, hle⟩, hinside⟩, horder⟩, hbody⟩ := h
  refine ⟨⟨a, b, ?_, hb, hstart.symm, hstop.symm⟩, hinside, horder, ?_⟩
  · by_contra hlt
    have hless := Text.Utf8.bytesBefore_strictMono text (Nat.lt_of_not_le hlt) ha
    omega
  · intro hkind v b hv hb
    rcases hbody with hbody | hbody
    · rw [hkind] at hbody
      cases hbody
    · simpa [hv, hb] using hbody

theorem Within.cases_child {root n : Node} (h : Within root n) :
    n = root ∨ ∃ c ∈ root.children, Within c n := by
  induction h with
  | self => exact Or.inl rfl
  | child _ hc ih =>
      rcases ih with rfl | ⟨d, hd, hm⟩
      · exact Or.inr ⟨_, hc, .self⟩
      · exact Or.inr ⟨d, hd, .child hm hc⟩

mutual

theorem treeOver_of_check {text : List Char} :
    ∀ n : Node, treeCheck text n = true → TreeOver text n
  | .mk k s e r m f cs => by
      intro h x hx
      rw [treeCheck, Bool.and_eq_true] at h
      rcases hx.cases_child with rfl | ⟨c, hc, hx⟩
      · exact placed_of_check h.1
      · exact treeOver_of_checkAll cs h.2 c hc x hx

theorem treeOver_of_checkAll {text : List Char} :
    ∀ cs : List Node, treeCheckAll text cs = true → ∀ c ∈ cs, TreeOver text c
  | [] => fun _ c hc => absurd hc List.not_mem_nil
  | n :: rest => by
      intro h c hc
      rw [treeCheckAll, Bool.and_eq_true] at h
      rcases List.mem_cons.mp hc with heq | hc
      · rw [heq]
        exact treeOver_of_check n h.1
      · exact treeOver_of_checkAll rest h.2 c hc

end

end Syntax

namespace Discovery

/-! ### The declarations that are visited -/

/-- The fields in a list of fields. -/
def fieldsIn (list : Node) : List Node :=
  list.children.filter fun c => c.kind == .field

/-- The fields in a body, where the body is a list of fields. -/
def fieldsOfBody : Option Node → List Node
  | some b => if b.kind == .fieldList then fieldsIn b else []
  | none => []

/-- The variants in the body of an `enum`. -/
def variantsOfBody : Option Node → List Node
  | some b => b.children.filter fun c => c.kind == .enumVariant
  | none => []

/-- The declarations that a node with a rule of its own contributes. -/
def contributed (n : Node) : List Node :=
  match n.kind with
  | .structItem | .unionItem => n :: fieldsOfBody n.body?
  | .functionItem | .field => [n]
  | .enumItem => n :: (variantsOfBody n.body?).flatMap fun v => fieldsOfBody v.body?
  | .enumVariant => fieldsOfBody n.body?
  | .fieldList => fieldsIn n
  | _ => []

mutual

/-- The declarations of a tree that the walk visits, in order. -/
def declared : Node → List Node
  | .mk k s e r m f cs =>
    match treatment k with
    | .rule _ => contributed (.mk k s e r m f cs)
    | .skip => []
    | .descend => declaredAll cs

/-- The declarations of a list of trees. -/
def declaredAll : List Node → List Node
  | [] => []
  | n :: rest => declared n ++ declaredAll rest

end

variable {source : List UInt8}

theorem inTurn_append (step : Node → Except WalkError (List Edit)) (a b : List Node) :
    inTurn step (a ++ b) = do
      let first ← inTurn step a
      let others ← inTurn step b
      return first ++ others := by
  induction a with
  | nil =>
      simp only [List.nil_append, inTurn]
      cases inTurn step b <;> rfl
  | cons n a ih =>
      simp only [List.cons_append, inTurn, ih, bind_assoc, pure_bind, List.append_assoc]

/-- Steps that go through lists of their own come down to one long list. -/
theorem inTurn_flatMap {step inner : Node → Except WalkError (List Edit)} {f : Node → List Node}
    (h : ∀ n, step n = inTurn inner (f n)) (ns : List Node) :
    inTurn step ns = inTurn inner (ns.flatMap f) := by
  induction ns with
  | nil => rfl
  | cons n rest ih => rw [inTurn, List.flatMap_cons, inTurn_append, h, ih]

theorem bodyFields_eq (body : Option Node) :
    bodyFields source body = inTurn (declaration source) (fieldsOfBody body) := by
  cases body with
  | none => rfl
  | some b =>
      simp only [bodyFields, fieldsOfBody]
      split <;> rfl

theorem variants_eq (body : Option Node) :
    variants source body = inTurn (declaration source)
      ((variantsOfBody body).flatMap fun v => fieldsOfBody v.body?) := by
  cases body with
  | none => rfl
  | some b => exact inTurn_flatMap (fun v => bodyFields_eq v.body?) _

/-- A node with a rule yields the edits of what it contributes. -/
theorem rule_eq {n : Node} {step : List UInt8 → Node → Except WalkError (List Edit)}
    (h : treatment n.kind = .rule step) :
    step source n = inTurn (declaration source) (contributed n) := by
  have hone : declaration source n = inTurn (declaration source) [n] := by
    simp only [inTurn]
    cases declaration source n <;> simp [bind, Except.bind, pure, Except.pure]
  unfold contributed
  cases hk : n.kind <;> simp only [hk, treatment, Treatment.rule.injEq, reduceCtorEq] at h <;>
    subst h
  case structItem => simp only [aggregate, bodyFields_eq, inTurn]
  case unionItem => simp only [aggregate, bodyFields_eq, inTurn]
  case functionItem => exact hone
  case enumItem => simp only [enumeration, variants_eq, inTurn]
  case enumVariant => exact bodyFields_eq n.body?
  case fieldList => rfl
  case field => exact hone

mutual

/-- The walk takes the edits of one declaration after the other. -/
theorem walk_eq (source : List UInt8) :
    ∀ n : Node, walk source n = inTurn (declaration source) (declared n)
  | .mk k s e r m f cs => by
      rw [walk, declared]
      cases ht : treatment k with
      | rule step => exact rule_eq (n := .mk k s e r m f cs) ht
      | skip => rfl
      | descend => exact walkAll_eq source cs

theorem walkAll_eq (source : List UInt8) :
    ∀ cs : List Node, walkAll source cs = inTurn (declaration source) (declaredAll cs)
  | [] => rfl
  | n :: rest => by
      rw [walkAll, declaredAll, inTurn_append, walk_eq source n, walkAll_eq source rest]

end

theorem within_fieldsIn {list f : Node} (h : f ∈ fieldsIn list) : Within list f :=
  .child .self (List.mem_of_mem_filter h)

theorem within_fieldsOfBody {n f : Node} (h : f ∈ fieldsOfBody n.body?) : Within n f := by
  cases hb : n.body? with
  | none =>
      rw [hb] at h
      exact absurd h List.not_mem_nil
  | some b =>
      simp only [hb, fieldsOfBody] at h
      split at h
      · exact .trans (.child .self (List.mem_of_find?_eq_some hb)) (within_fieldsIn h)
      · exact absurd h List.not_mem_nil

theorem within_variants {n f : Node}
    (h : f ∈ (variantsOfBody n.body?).flatMap fun v => fieldsOfBody v.body?) : Within n f := by
  obtain ⟨v, hv, hf⟩ := List.mem_flatMap.mp h
  cases hb : n.body? with
  | none =>
      rw [hb] at hv
      exact absurd hv List.not_mem_nil
  | some b =>
      rw [hb] at hv
      have hvin : Within b v := .child .self (List.mem_of_mem_filter hv)
      exact .trans (.trans (.child .self (List.mem_of_find?_eq_some hb)) hvin)
        (within_fieldsOfBody hf)

theorem within_contributed {n m : Node} (h : m ∈ contributed n) : Within n m := by
  unfold contributed at h
  split at h
  · rcases List.mem_cons.mp h with rfl | h
    · exact .self
    · exact within_fieldsOfBody h
  · rcases List.mem_cons.mp h with rfl | h
    · exact .self
    · exact within_fieldsOfBody h
  · obtain rfl := List.mem_singleton.mp h
    exact .self
  · obtain rfl := List.mem_singleton.mp h
    exact .self
  · rcases List.mem_cons.mp h with rfl | h
    · exact .self
    · exact within_variants h
  · exact within_fieldsOfBody h
  · exact within_fieldsIn h
  · exact absurd h List.not_mem_nil

mutual

/-- A declaration that is visited is a node of the tree. -/
theorem within_declared {m : Node} : ∀ n : Node, m ∈ declared n → Within n m
  | .mk k s e r i f cs => by
      intro h
      rw [declared] at h
      cases ht : treatment k with
      | rule _ =>
          rw [ht] at h
          exact within_contributed h
      | skip =>
          rw [ht] at h
          exact absurd h List.not_mem_nil
      | descend =>
          rw [ht] at h
          obtain ⟨c, hc, hm⟩ := within_declaredAll cs h
          exact .trans (.child .self hc) hm

theorem within_declaredAll {m : Node} : ∀ cs : List Node, m ∈ declaredAll cs →
    ∃ c ∈ cs, Within c m
  | [] => fun h => absurd h List.not_mem_nil
  | n :: rest => by
      intro h
      rw [declaredAll] at h
      rcases List.mem_append.mp h with h | h
      · exact ⟨n, List.mem_cons_self, within_declared n h⟩
      · obtain ⟨c, hc, hm⟩ := within_declaredAll rest h
        exact ⟨c, List.mem_cons_of_mem n hc, hm⟩

end

theorem inTurn_mem {step : Node → Except WalkError (List Edit)} {ns : List Node}
    {es : List Edit} (h : inTurn step ns = .ok es) {e : Edit} (he : e ∈ es) :
    ∃ n ∈ ns, ∃ own, step n = .ok own ∧ e ∈ own := by
  induction ns generalizing es with
  | nil =>
      simp only [inTurn, Except.ok.injEq] at h
      rw [← h] at he
      exact absurd he List.not_mem_nil
  | cons n rest ih =>
      simp only [inTurn, bind_eq_ok, pure_eq_ok] at h
      obtain ⟨own, hown, others, hothers, rfl⟩ := h
      rcases List.mem_append.mp he with he | he
      · exact ⟨n, List.mem_cons_self, own, hown, he⟩
      · obtain ⟨m, hm, hedit⟩ := ih hothers he
        exact ⟨m, List.mem_cons_of_mem n hm, hedit⟩

/-! ### The modifiers, one after the other -/

/-- Nodes that follow each other without overlap, from offset `lo` up to offset `hi`. -/
def InRow (lo hi : Nat) (vs : List Node) : Prop :=
  vs.Pairwise (fun v w => v.stop ≤ w.start) ∧ ∀ v ∈ vs, lo ≤ v.start ∧ v.stop ≤ hi

namespace InRow

theorem nil (lo hi : Nat) : InRow lo hi [] :=
  ⟨List.Pairwise.nil, fun _ hv => absurd hv List.not_mem_nil⟩

theorem mono {lo lo' hi hi' : Nat} {vs : List Node} (h : InRow lo hi vs) (hlo : lo' ≤ lo)
    (hhi : hi ≤ hi') : InRow lo' hi' vs :=
  ⟨h.1, fun v hv => ⟨Nat.le_trans hlo (h.2 v hv).1, Nat.le_trans (h.2 v hv).2 hhi⟩⟩

theorem append {lo hi : Nat} {vs ws : List Node} (hvs : InRow lo hi vs) (hws : InRow lo hi ws)
    (h : ∀ v ∈ vs, ∀ w ∈ ws, v.stop ≤ w.start) : InRow lo hi (vs ++ ws) := by
  refine ⟨List.pairwise_append.mpr ⟨hvs.1, hws.1, h⟩, ?_⟩
  intro v hv
  rcases List.mem_append.mp hv with hv | hv
  · exact hvs.2 v hv
  · exact hws.2 v hv

/-- What lies in nodes that follow each other does so too. -/
theorem flatMap {lo hi : Nat} {cs : List Node} {f : Node → List Node} (h : InRow lo hi cs)
    (hf : ∀ c ∈ cs, InRow c.start c.stop (f c)) : InRow lo hi (cs.flatMap f) := by
  refine ⟨List.pairwise_flatMap.mpr ⟨fun c hc => (hf c hc).1, ?_⟩, ?_⟩
  · refine h.1.imp_of_mem fun {c d} hc hd hcd v hv w hw => ?_
    exact Nat.le_trans (hf c hc |>.2 v hv).2 (Nat.le_trans hcd (hf d hd |>.2 w hw).1)
  · intro v hv
    obtain ⟨c, hc, hv⟩ := List.mem_flatMap.mp hv
    exact ((hf c hc).mono (h.2 c hc).1 (h.2 c hc).2).2 v hv

end InRow

variable {n : Node}

theorem inRow_filter (h : NestedTree n) (p : Node → Bool) :
    InRow n.start n.stop (n.children.filter p) :=
  ⟨h.nested.inOrder.sublist List.filter_sublist,
    fun c hc => h.nested.inside c (List.mem_of_mem_filter hc)⟩

theorem mem_of_modifier? {v : Node} (h : n.modifier? = some v) : v ∈ n.children :=
  List.mem_of_find?_eq_some h

theorem mem_of_body? {b : Node} (h : n.body? = some b) : b ∈ n.children :=
  List.mem_of_find?_eq_some h

/-- The modifiers of some declarations. -/
def modifiers (ns : List Node) : List Node :=
  ns.flatMap fun n => n.modifier?.toList

theorem inRow_modifier (h : NestedTree n) : InRow n.start n.stop n.modifier?.toList := by
  cases hv : n.modifier? with
  | none => exact InRow.nil _ _
  | some v =>
      refine ⟨List.pairwise_singleton _ _, ?_⟩
      intro w hw
      obtain rfl := Option.mem_toList.mp hw |> Option.some.inj
      exact h.nested.inside v (mem_of_modifier? hv)

theorem inRow_fieldsIn (h : NestedTree n) : InRow n.start n.stop (modifiers (fieldsIn n)) :=
  (inRow_filter h _).flatMap fun _ hc => inRow_modifier (h.child (List.mem_of_mem_filter hc))

theorem inRow_fieldsOfBody {b : Node} (h : NestedTree b) :
    InRow b.start b.stop (modifiers (fieldsOfBody (some b))) := by
  simp only [fieldsOfBody]
  split
  · exact inRow_fieldsIn h
  · exact InRow.nil _ _

/-- What a body contributes lies in the body, so all the more in the node. -/
theorem inRow_body {f : Option Node → List Node} (h : NestedTree n)
    (hnone : f none = []) (hsome : ∀ b, n.body? = some b → InRow b.start b.stop (f (some b))) :
    InRow n.start n.stop (f n.body?) := by
  cases hb : n.body? with
  | none =>
      rw [hnone]
      exact InRow.nil _ _
  | some b =>
      have hin := h.nested.inside b (mem_of_body? hb)
      exact (hsome b hb).mono hin.1 hin.2

theorem inRow_fieldsOfOwnBody (h : NestedTree n) :
    InRow n.start n.stop (modifiers (fieldsOfBody n.body?)) :=
  inRow_body (f := fun body => modifiers (fieldsOfBody body)) h rfl
    fun _ hb => inRow_fieldsOfBody (h.child (mem_of_body? hb))

theorem modifiers_flatMap (ns : List Node) (f : Node → List Node) :
    modifiers (ns.flatMap f) = ns.flatMap fun n => modifiers (f n) :=
  List.flatMap_assoc

theorem inRow_variants {b : Node} (h : NestedTree b) :
    InRow b.start b.stop
      (modifiers ((variantsOfBody (some b)).flatMap fun v => fieldsOfBody v.body?)) := by
  rw [modifiers_flatMap]
  exact (inRow_filter h _).flatMap fun _ hc =>
    inRow_fieldsOfOwnBody (h.child (List.mem_of_mem_filter hc))

/-- A container's own modifier comes first, then those in its body. -/
theorem inRow_container {f : Option Node → List Node} (h : NestedTree n)
    (hkind : n.kind.isContainer = true) (hnone : f none = [])
    (hsome : ∀ b, n.body? = some b → InRow b.start b.stop (f (some b))) :
    InRow n.start n.stop (n.modifier?.toList ++ f n.body?) := by
  cases hv : n.modifier? with
  | none => exact inRow_body h hnone hsome
  | some v =>
      have hmod := inRow_modifier h
      rw [hv] at hmod
      cases hb : n.body? with
      | none =>
          rw [hnone, List.append_nil]
          exact hmod
      | some b =>
          have hbin := h.nested.inside b (mem_of_body? hb)
          have hvb := h.nested.bodyLast hkind v b hv hb
          refine hmod.append ((hsome b hb).mono hbin.1 hbin.2) ?_
          intro u hu w hw
          obtain rfl := Option.mem_toList.mp hu |> Option.some.inj
          exact Nat.le_trans hvb ((hsome b hb).2 w hw).1

/-- What a node with a rule contributes lies in the node. -/
theorem inRow_contributed (h : NestedTree n) :
    InRow n.start n.stop (modifiers (contributed n)) := by
  unfold contributed
  have hone : InRow n.start n.stop (modifiers [n]) := by
    rw [modifiers, List.flatMap_singleton]
    exact inRow_modifier h
  have haggregate (hkind : n.kind.isContainer = true) :
      InRow n.start n.stop (modifiers (n :: fieldsOfBody n.body?)) :=
    inRow_container (f := fun body => modifiers (fieldsOfBody body)) h hkind rfl
      fun _ hb => inRow_fieldsOfBody (h.child (mem_of_body? hb))
  cases hk : n.kind <;> dsimp only
  case structItem => exact haggregate (by rw [hk]; rfl)
  case unionItem => exact haggregate (by rw [hk]; rfl)
  case functionItem => exact hone
  case field => exact hone
  case enumItem =>
    exact inRow_container
      (f := fun body => modifiers ((variantsOfBody body).flatMap fun v => fieldsOfBody v.body?))
      h (by rw [hk]; rfl) rfl fun _ hb => inRow_variants (h.child (mem_of_body? hb))
  case enumVariant => exact inRow_fieldsOfOwnBody h
  case fieldList => exact inRow_fieldsIn h
  all_goals exact InRow.nil _ _

theorem declaredAll_eq (cs : List Node) : declaredAll cs = cs.flatMap declared := by
  induction cs with
  | nil => rfl
  | cons c cs ih => rw [declaredAll, ih, List.flatMap_cons]

mutual

/-- The modifiers of the declarations of a tree follow each other without overlap. -/
theorem inRow_declared : ∀ n : Node, NestedTree n →
    InRow n.start n.stop (modifiers (declared n))
  | .mk k s e r m f cs => by
      intro h
      rw [declared]
      cases treatment k with
      | rule _ => exact inRow_contributed h
      | skip => exact InRow.nil _ _
      | descend =>
          have hrow : InRow s e cs := ⟨h.nested.inOrder, h.nested.inside⟩
          dsimp only
          rw [declaredAll_eq, modifiers_flatMap]
          exact hrow.flatMap fun c hc => inRow_declaredAll cs (fun d hd => h.child hd) c hc

theorem inRow_declaredAll : ∀ cs : List Node, (∀ c ∈ cs, NestedTree c) →
    ∀ c ∈ cs, InRow c.start c.stop (modifiers (declared c))
  | [] => fun _ c hc => absurd hc List.not_mem_nil
  | n :: rest => by
      intro hall c hc
      rcases List.mem_cons.mp hc with heq | hc
      · rw [heq]
        exact inRow_declared n (hall n List.mem_cons_self)
      · exact inRow_declaredAll rest (fun d hd => hall d (List.mem_cons_of_mem n hd)) c hc

end

/-! ### The edits of a modifier -/

variable {text : List Char}

/-- An edit that narrows the visibility which a modifier declares, at the modifier's place. -/
structure Narrows (source : List UInt8) (v : Node) (e : Edit) : Prop where
  way : ∃ text, Text.Utf8.decode (v.bytes source) = .ok text ∧
    e.narrowing ∈ (Visibility.ofModifier text).narrowings
  place : Span.ofBytes source v.start v.stop = .ok e.span

theorem narrow_mem {modifier : Option Node} {es : List Edit} {e : Edit}
    (h : narrow source modifier = .ok es) (he : e ∈ es) :
    ∃ v, modifier = some v ∧ Narrows source v e := by
  cases modifier with
  | none =>
      simp only [narrow, Except.ok.injEq] at h
      rw [← h] at he
      exact absurd he List.not_mem_nil
  | some v =>
      simp only [narrow, bind_eq_ok, mapError_eq_ok] at h
      obtain ⟨text, htext, h⟩ := h
      split at h
      · obtain rfl := pure_eq_ok.mp h
        exact absurd he List.not_mem_nil
      · simp only [bind_eq_ok, mapError_eq_ok, pure_eq_ok] at h
        obtain ⟨span, hspan, rfl⟩ := h
        obtain ⟨way, hway, rfl⟩ := List.mem_map.mp he
        exact ⟨v, rfl, ⟨text, htext, hway⟩, hspan⟩

/-- Every edit of a tree narrows the modifier of one of its declarations. -/
theorem walk_mem {root : Node} {es : List Edit} {e : Edit} (h : walk source root = .ok es)
    (he : e ∈ es) : ∃ n ∈ declared root, ∃ v, n.modifier? = some v ∧ Narrows source v e := by
  rw [walk_eq] at h
  obtain ⟨n, hn, own, hown, he⟩ := inTurn_mem h he
  exact ⟨n, hn, narrow_mem hown he⟩

/-- The position at a character is that after the characters before it. -/
theorem ofOffset_bytesBefore (text : List Char) (k : Nat) :
    Position.ofOffset (encode text) (bytesBefore text k) = Position.after (text.take k) := by
  have h := Position.ofOffset_encode (text.take k) (text.drop k)
  rwa [List.take_append_drop] at h

/-- A modifier with an edit has characters, and the edit's span is that of these characters. -/
theorem Narrows.exists_stretch {v : Node} {e : Edit} (h : Narrows (encode text) v e)
    (hv : v.stop ≤ (encode text).length) :
    ∃ a b, a < b ∧ b ≤ text.length ∧ v.start = bytesBefore text a ∧ v.stop = bytesBefore text b ∧
      e.span.start = Position.after (text.take a) ∧ e.span.stop = Position.after (text.take b) := by
  obtain ⟨token, htoken, hway⟩ := h.way
  -- no text, no visibility to narrow
  have hne : token ≠ [] := by
    rintro rfl
    have hnone : (Visibility.ofModifier []).narrowings = [] := by decide
    rw [hnone] at hway
    exact absurd hway List.not_mem_nil
  obtain ⟨a, b, hab, hb, hstart, hstop⟩ := Text.Utf8.exists_stretch_of_decode hv htoken hne
  have hplace := h.place
  rw [hstart, hstop, Span.ofBytes, Span.ofPositions, ofOffset_bytesBefore, ofOffset_bytesBefore]
    at hplace
  split at hplace
  · have hspan := (Except.ok.inj hplace).symm
    exact ⟨a, b, hab, hb, hstart, hstop, by rw [hspan], by rw [hspan]⟩
  · cases hplace

theorem Narrows.stretch {v : Node} {e : Edit} (h : Narrows (encode text) v e)
    (hv : v.Placed text) :
    ∃ a b, a < b ∧ b ≤ text.length ∧ v.start = bytesBefore text a ∧ v.stop = bytesBefore text b ∧
      e.span.start = Position.after (text.take a) ∧ e.span.stop = Position.after (text.take b) :=
  h.exists_stretch hv.stop_le

end Discovery

end Tighten
