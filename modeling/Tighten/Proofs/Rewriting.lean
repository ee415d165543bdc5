import Mathlib.Data.List.Pairwise
import Tighten.Proofs.Discovery

/-
A tree in which one modifier has been replaced.

The modifier gives way to another one, or to nothing, and every range after it moves by the
difference in length; nothing else about the tree changes.  The walk visits the same declarations as
before, in the same order, each in its new form.  All but one of them have the modifier that they
had, moved along with them.

This rests on the modifier being the child of a single node, the declaration that it belongs to.
Nodes are values, so that has to be seen from the ranges: a child with bytes of its own cannot lie
in two nodes unless one of them is inside the other, and then its siblings would overlap it.
-/
namespace Tighten

open Syntax

/-! ### Equality of trees -/

namespace Syntax

mutual

/-- Trees can be compared. -/
def Node.decEq : (a b : Node) → Decidable (a = b)
  | .mk k s e r m f cs, .mk k' s' e' r' m' f' cs' =>
    match decEqAll cs cs' with
    | .isTrue h => decidable_of_iff (k = k' ∧ s = s' ∧ e = e' ∧ r = r' ∧ m = m' ∧ f = f')
        (by simp [h])
    | .isFalse h => .isFalse (by simp [h])

def decEqAll : (as bs : List Node) → Decidable (as = bs)
  | [], [] => .isTrue rfl
  | [], _ :: _ => .isFalse (by simp)
  | _ :: _, [] => .isFalse (by simp)
  | a :: as, b :: bs =>
    match Node.decEq a b, decEqAll as bs with
    | .isTrue h, .isTrue hs => .isTrue (by simp [h, hs])
    | .isFalse h, _ => .isFalse (by simp [h])
    | .isTrue _, .isFalse hs => .isFalse (by simp [hs])

end

instance : DecidableEq Node := Node.decEq

end Syntax

/-! ### The tree after a replacement -/

/-- A modifier that gives way to what a narrowing writes in its place. -/
structure Replacement where
  old : Node
  way : Narrowing
  /-- The modifier that is there afterwards, if any; what is inside it is left open. -/
  new : Option Node
  old_kind : old.kind = .visibility
  old_nonempty : old.start < old.stop
  removed : way = .toInherited → new = none
  carried : way ≠ .toInherited → ∃ w, new = some w ∧ w.kind = .visibility ∧ w.role = old.role ∧
    w.start = old.start ∧ w.stop = old.start + (Text.Utf8.encode way.replacement.toList).length

namespace Replacement

/-- The bytes that are there afterwards. -/
def content (r : Replacement) : List UInt8 :=
  Text.Utf8.encode r.way.replacement.toList

/-- Where an offset goes. -/
def shift (r : Replacement) (offset : Nat) : Nat :=
  if offset ≤ r.old.start then offset else offset - r.old.stop + r.old.start + r.content.length

mutual

/-- The tree afterwards. -/
def rewrite (r : Replacement) : Node → Node
  | .mk k s e role m f cs => .mk k (r.shift s) (r.shift e) role m f (rewriteAll r cs)

def rewriteAll (r : Replacement) : List Node → List Node
  | [] => []
  | c :: rest => (if c = r.old then r.new.toList else [rewrite r c]) ++ rewriteAll r rest

end

variable {r : Replacement}

theorem shift_of_le {offset : Nat} (h : offset ≤ r.old.start) : r.shift offset = offset :=
  if_pos h

theorem shift_of_ge {offset : Nat} (h : r.old.stop ≤ offset) :
    r.shift offset = offset - r.old.stop + r.old.start + r.content.length := by
  have hne := r.old_nonempty
  exact if_neg (by omega)

@[simp] theorem kind_rewrite (n : Node) : (r.rewrite n).kind = n.kind := by
  cases n; rfl

@[simp] theorem role_rewrite (n : Node) : (r.rewrite n).role = n.role := by
  cases n; rfl

@[simp] theorem start_rewrite (n : Node) : (r.rewrite n).start = r.shift n.start := by
  cases n; rfl

@[simp] theorem stop_rewrite (n : Node) : (r.rewrite n).stop = r.shift n.stop := by
  cases n; rfl

@[simp] theorem children_rewrite (n : Node) :
    (r.rewrite n).children = r.rewriteAll n.children := by
  cases n; rfl

theorem new_alike {w : Node} (hw : w ∈ r.new) : w.kind = .visibility ∧ w.role = r.old.role := by
  by_cases hway : r.way = .toInherited
  · rw [r.removed hway] at hw
    cases hw
  · obtain ⟨w', hw', hkind, hrole, -⟩ := r.carried hway
    rw [hw'] at hw
    obtain rfl := Option.some.inj hw
    exact ⟨hkind, hrole⟩

theorem rewriteAll_of_not_mem {cs : List Node} (h : r.old ∉ cs) :
    r.rewriteAll cs = cs.map r.rewrite := by
  induction cs with
  | nil => rfl
  | cons c rest ih =>
      rw [List.mem_cons, not_or] at h
      rw [rewriteAll, if_neg (Ne.symm h.1), ih h.2]
      rfl

/-- What is picked out by kind and role is picked out afterwards as well. -/
theorem filter_rewriteAll (q : Kind → Role → Bool) (cs : List Node) :
    (r.rewriteAll cs).filter (fun c => q c.kind c.role) =
      r.rewriteAll (cs.filter fun c => q c.kind c.role) := by
  induction cs with
  | nil => rfl
  | cons c rest ih =>
      have hfirst : (if c = r.old then r.new.toList else [r.rewrite c]).filter
          (fun c => q c.kind c.role) =
          if q c.kind c.role then (if c = r.old then r.new.toList else [r.rewrite c])
          else [] := by
        by_cases hc : c = r.old
        · rw [if_pos hc, hc, r.old_kind]
          cases hnew : r.new with
          | none => simp
          | some w =>
              obtain ⟨hkind, hrole⟩ := new_alike hnew
              simp [List.filter_cons, hkind, hrole]
        · simp [hc, List.filter_cons]
      rw [rewriteAll, List.filter_append, hfirst, ih, List.filter_cons]
      by_cases hq : q c.kind c.role = true
      · simp [hq, rewriteAll]
      · simp [hq]

/-- By any kind but that of modifiers, the replacement does not show. -/
theorem filter_kind_rewriteAll {k : Kind} (hk : k ≠ .visibility) (cs : List Node) :
    (r.rewriteAll cs).filter (fun c => c.kind == k) =
      (cs.filter fun c => c.kind == k).map r.rewrite := by
  rw [filter_rewriteAll fun kind _ => kind == k, rewriteAll_of_not_mem]
  intro hmem
  have hkind := (List.mem_filter.mp hmem).2
  rw [r.old_kind, beq_iff_eq] at hkind
  exact hk hkind.symm

theorem body?_rewrite {n : Node} (hbody : r.old ∈ n.children → r.old.role ≠ .body) :
    (r.rewrite n).body? = n.body?.map r.rewrite := by
  have hnot : r.old ∉ n.children.filter fun c => c.role == .body := by
    intro hmem
    obtain ⟨hchild, hrole⟩ := List.mem_filter.mp hmem
    exact hbody hchild (beq_iff_eq.mp hrole)
  rw [Node.body?, Node.body?, ← List.head?_filter, ← List.head?_filter, children_rewrite,
    filter_rewriteAll fun _ role => role == .body, rewriteAll_of_not_mem hnot, List.head?_map]

theorem modifier?_rewrite_of_not_mem {n : Node} (h : r.old ∉ n.children) :
    (r.rewrite n).modifier? = n.modifier?.map r.rewrite := by
  rw [Node.modifier?, Node.modifier?, children_rewrite, rewriteAll_of_not_mem h, List.find?_map]
  simp only [Function.comp_def, kind_rewrite]

/-- The declaration of the modifier has the new one, or none. -/
theorem modifier?_rewrite_self {n : Node} (hv : n.modifier? = some r.old)
    (hone : (n.children.filter fun c => c.kind == .visibility).length ≤ 1) :
    (r.rewrite n).modifier? = r.new := by
  have hall : (n.children.filter fun c => c.kind == .visibility) = [r.old] := by
    rw [Node.modifier?, ← List.head?_filter] at hv
    generalize n.children.filter (fun c => c.kind == .visibility) = vs at hv hone ⊢
    match vs, hv, hone with
    | [w], hv, _ => rw [Option.some.inj hv]
    | _ :: _ :: _, _, hone => simp at hone
  rw [Node.modifier?, ← List.head?_filter, children_rewrite,
    filter_rewriteAll fun kind _ => kind == .visibility, hall]
  rw [rewriteAll, if_pos rfl, rewriteAll, List.append_nil]
  cases r.new <;> rfl

end Replacement

/-! ### The node that a child belongs to -/

namespace Syntax

theorem sizeOf_child {n c : Node} (h : c ∈ n.children) : sizeOf c < sizeOf n := by
  cases n with
  | mk k s e r m f cs =>
      have hlt : sizeOf c < sizeOf cs := List.sizeOf_lt_of_mem h
      simp only [Node.mk.sizeOf_spec]
      omega

theorem Within.sizeOf_le {root n : Node} (h : Within root n) : sizeOf n ≤ sizeOf root := by
  induction h with
  | self => exact Nat.le_refl _
  | child _ hc ih => exact Nat.le_trans (Nat.le_of_lt (sizeOf_child hc)) ih

variable {text : List Char} {root x y v : Node}

theorem TreeOver.range_le (h : TreeOver text root) (hx : Within root x) :
    root.start ≤ x.start ∧ x.stop ≤ root.stop :=
  h.nested.range_le hx

/-- Of two nodes that follow each other, whichever way round, neither reaches into the other. -/
theorem apart_of_pairwise {ns : List Node} (h : ns.Pairwise fun c d => c.stop ≤ d.start)
    (hx : x ∈ ns) (hy : y ∈ ns) (hxy : x ≠ y) : x.stop ≤ y.start ∨ y.stop ≤ x.start := by
  have hsymm : Std.Symm fun c d : Node => c.stop ≤ d.start ∨ d.stop ≤ c.start :=
    ⟨fun _ _ => Or.symm⟩
  have hpairs : ns.Pairwise fun c d => c.stop ≤ d.start ∨ d.stop ≤ c.start := h.imp Or.inl
  exact hpairs.forall hx hy hxy

/-- Two nodes lie apart unless one is inside the other. -/
theorem TreeOver.nested_or_apart : ∀ root : Node, TreeOver text root → ∀ x y, Within root x →
    Within root y → Within x y ∨ Within y x ∨ x.stop ≤ y.start ∨ y.stop ≤ x.start := by
  intro root
  induction hsize : sizeOf root using Nat.strong_induction_on generalizing root with
  | _ size ih =>
      intro h x y hx hy
      rcases hx.cases_child with rfl | ⟨c, hc, hxc⟩
      · exact Or.inl hy
      rcases hy.cases_child with rfl | ⟨d, hd, hyd⟩
      · exact Or.inr (Or.inl hx)
      have hxin := (h.child hc).range_le hxc
      have hyin := (h.child hd).range_le hyd
      by_cases hcd : c = d
      · subst hcd
        exact ih (sizeOf c) (hsize ▸ sizeOf_child hc) c rfl (h.child hc) x y hxc hyd
      · -- different children follow each other, one way or the other
        rcases apart_of_pairwise h.placed.inOrder hc hd hcd with hle | hle
        · exact Or.inr (Or.inr (Or.inl (by omega)))
        · exact Or.inr (Or.inr (Or.inr (by omega)))

/-- A child with bytes of its own is not the child of a node further down. -/
theorem TreeOver.eq_of_within (h : TreeOver text x) (hne : v.start < v.stop)
    (hx : v ∈ x.children) (hxy : Within x y) (hy : v ∈ y.children) : x = y := by
  rcases hxy.cases_child with rfl | ⟨c, hc, hcy⟩
  · rfl
  exfalso
  have hvin := (h.child hc).range_le (.child hcy hy)
  by_cases hcv : c = v
  · subst hcv
    have hle := hcy.sizeOf_le
    have hlt := sizeOf_child hy
    omega
  · rcases apart_of_pairwise h.placed.inOrder hc hx hcv with hle | hle <;> omega

/-- A child with bytes of its own has one parent. -/
theorem TreeOver.parent_unique (h : TreeOver text root) (hne : v.start < v.stop)
    (hx : Within root x) (hvx : v ∈ x.children) (hy : Within root y) (hvy : v ∈ y.children) :
    x = y := by
  have hxin := (h x hx).inside v hvx
  have hyin := (h y hy).inside v hvy
  rcases h.nested_or_apart root x y hx hy with hxy | hyx | hle | hle
  · exact (h.within hx).eq_of_within hne hvx hxy hvy
  · exact ((h.within hy).eq_of_within hne hvy hyx hvx).symm
  · omega
  · omega

end Syntax

/-! ### The declarations afterwards -/

namespace Discovery

theorem kind_of_fieldsIn {list d : Node} (h : d ∈ fieldsIn list) : d.kind = .field :=
  beq_iff_eq.mp (List.mem_filter.mp h).2

theorem kind_of_fieldsOfBody {body : Option Node} {d : Node} (h : d ∈ fieldsOfBody body) :
    d.kind = .field := by
  cases body with
  | none => exact absurd h List.not_mem_nil
  | some b =>
      rw [fieldsOfBody] at h
      split at h
      · exact kind_of_fieldsIn h
      · exact absurd h List.not_mem_nil

theorem kind_of_contributed {n d : Node} (h : d ∈ contributed n) :
    d.kind ≠ .enumVariant ∧ treatment d.kind ≠ .descend := by
  have hfield : d.kind = .field → d.kind ≠ .enumVariant ∧ treatment d.kind ≠ .descend := by
    intro hd
    rw [hd]
    exact ⟨by decide, by simp [treatment]⟩
  have hself : ∀ k, n.kind = k → k ≠ .enumVariant → treatment k ≠ .descend → d = n →
      d.kind ≠ .enumVariant ∧ treatment d.kind ≠ .descend := by
    rintro k rfl hvariant htreatment rfl
    exact ⟨hvariant, htreatment⟩
  unfold contributed at h
  split at h
  · next hk =>
      rcases List.mem_cons.mp h with h | h
      · exact hself _ hk (by decide) (by simp [treatment]) h
      · exact hfield (kind_of_fieldsOfBody h)
  · next hk =>
      rcases List.mem_cons.mp h with h | h
      · exact hself _ hk (by decide) (by simp [treatment]) h
      · exact hfield (kind_of_fieldsOfBody h)
  · next hk => exact hself _ hk (by decide) (by simp [treatment]) (List.mem_singleton.mp h)
  · next hk => exact hself _ hk (by decide) (by simp [treatment]) (List.mem_singleton.mp h)
  · next hk =>
      rcases List.mem_cons.mp h with h | h
      · exact hself _ hk (by decide) (by simp [treatment]) h
      · obtain ⟨w, -, h⟩ := List.mem_flatMap.mp h
        exact hfield (kind_of_fieldsOfBody h)
  · exact hfield (kind_of_fieldsOfBody h)
  · exact hfield (kind_of_fieldsIn h)
  · exact absurd h List.not_mem_nil

mutual

/-- No variant is visited, and no node that has no rule. -/
theorem kind_of_declared {d : Node} : ∀ n : Node, d ∈ declared n →
    d.kind ≠ .enumVariant ∧ treatment d.kind ≠ .descend
  | .mk k s e r m f cs => by
      intro h
      rw [declared] at h
      cases ht : treatment k with
      | rule step =>
          rw [ht] at h
          exact kind_of_contributed h
      | skip =>
          rw [ht] at h
          exact absurd h List.not_mem_nil
      | descend =>
          rw [ht] at h
          exact kind_of_declaredAll cs h

theorem kind_of_declaredAll {d : Node} : ∀ cs : List Node, d ∈ declaredAll cs →
    d.kind ≠ .enumVariant ∧ treatment d.kind ≠ .descend
  | [] => fun h => absurd h List.not_mem_nil
  | n :: rest => by
      intro h
      rw [declaredAll] at h
      rcases List.mem_append.mp h with h | h
      · exact kind_of_declared n h
      · exact kind_of_declaredAll rest h

end

variable {r : Replacement}

/-- Where the modifier of a declaration can be: not as a body that the walk looks into, and not
below a node without a rule. -/
structure Sits (r : Replacement) (root : Node) : Prop where
  notBody : ∀ n, Within root n → n.kind.isContainer = true ∨ n.kind = .enumVariant →
    r.old ∈ n.children → r.old.role ≠ .body
  notBelow : ∀ n, Within root n → treatment n.kind = .descend → r.old ∉ n.children

theorem Sits.within {root n : Node} (h : Sits r root) (hn : Within root n) : Sits r n where
  notBody m hm := h.notBody m (.trans hn hm)
  notBelow m hm := h.notBelow m (.trans hn hm)

theorem fieldsIn_rewrite (list : Node) :
    fieldsIn (r.rewrite list) = (fieldsIn list).map r.rewrite := by
  rw [fieldsIn, Replacement.children_rewrite, Replacement.filter_kind_rewriteAll (by decide)]
  rfl

theorem fieldsOfBody_rewrite (body : Option Node) :
    fieldsOfBody (body.map r.rewrite) = (fieldsOfBody body).map r.rewrite := by
  cases body with
  | none => rfl
  | some b =>
      simp only [Option.map_some, fieldsOfBody, Replacement.kind_rewrite, fieldsIn_rewrite]
      split <;> rfl

theorem variantsOfBody_rewrite (body : Option Node) :
    variantsOfBody (body.map r.rewrite) = (variantsOfBody body).map r.rewrite := by
  cases body with
  | none => rfl
  | some b =>
      simp only [Option.map_some, variantsOfBody, Replacement.children_rewrite]
      exact Replacement.filter_kind_rewriteAll (by decide) b.children

theorem fieldsOfOwnBody_rewrite {n : Node} (h : Sits r n)
    (hkind : n.kind.isContainer = true ∨ n.kind = .enumVariant) :
    fieldsOfBody (r.rewrite n).body? = (fieldsOfBody n.body?).map r.rewrite := by
  rw [Replacement.body?_rewrite (h.notBody n .self hkind), fieldsOfBody_rewrite]

theorem variants_rewrite {n : Node} (h : Sits r n) (hkind : n.kind.isContainer = true) :
    ((variantsOfBody (r.rewrite n).body?).flatMap fun v => fieldsOfBody v.body?) =
      ((variantsOfBody n.body?).flatMap fun v => fieldsOfBody v.body?).map r.rewrite := by
  rw [Replacement.body?_rewrite (h.notBody n .self (Or.inl hkind)), variantsOfBody_rewrite,
    List.flatMap_map, List.map_flatMap]
  refine List.flatMap_congr fun v hv => ?_
  cases hb : n.body? with
  | none =>
      rw [hb] at hv
      exact absurd hv List.not_mem_nil
  | some b =>
      rw [hb] at hv
      obtain ⟨hchild, hvariant⟩ := List.mem_filter.mp hv
      have hwithin : Within n v := .child (.child .self (mem_of_body? hb)) hchild
      exact fieldsOfOwnBody_rewrite (h.within hwithin) (Or.inr (beq_iff_eq.mp hvariant))

theorem contributed_rewrite {n : Node} (h : Sits r n) :
    contributed (r.rewrite n) = (contributed n).map r.rewrite := by
  unfold contributed
  rw [Replacement.kind_rewrite]
  cases hk : n.kind <;> dsimp only
  case structItem =>
    rw [fieldsOfOwnBody_rewrite h (Or.inl (by rw [hk]; rfl)), List.map_cons]
  case unionItem =>
    rw [fieldsOfOwnBody_rewrite h (Or.inl (by rw [hk]; rfl)), List.map_cons]
  case functionItem => rfl
  case field => rfl
  case enumItem => rw [variants_rewrite h (by rw [hk]; rfl), List.map_cons]
  case enumVariant => exact fieldsOfOwnBody_rewrite h (Or.inr hk)
  case fieldList => exact fieldsIn_rewrite n
  all_goals rfl

mutual

/-- The walk visits the same declarations, in their new form. -/
theorem declared_rewrite : ∀ n : Node, Sits r n →
    declared (r.rewrite n) = (declared n).map r.rewrite
  | .mk k s e role m f cs => by
      intro h
      rw [Replacement.rewrite, declared, declared]
      cases ht : treatment k with
      | rule step => exact contributed_rewrite h
      | skip => rfl
      | descend =>
          have hnot : r.old ∉ cs := h.notBelow _ .self ht
          show declaredAll (r.rewriteAll cs) = (declaredAll cs).map r.rewrite
          rw [Replacement.rewriteAll_of_not_mem hnot]
          exact declaredAll_rewrite cs fun c hc => h.within (.child .self hc)

theorem declaredAll_rewrite : ∀ cs : List Node, (∀ c ∈ cs, Sits r c) →
    declaredAll (cs.map r.rewrite) = (declaredAll cs).map r.rewrite
  | [] => fun _ => rfl
  | n :: rest => by
      intro h
      rw [List.map_cons, declaredAll, declaredAll, List.map_append,
        declared_rewrite n (h n List.mem_cons_self),
        declaredAll_rewrite rest fun c hc => h c (List.mem_cons_of_mem n hc)]

end

/-- The modifier of a declaration sits where it should. -/
theorem sits_of_modifier {text : List Char} {root n : Node} (h : TreeOver text root)
    (hn : n ∈ declared root) (hv : n.modifier? = some r.old) : Sits r root := by
  have hwithin := within_declared root hn
  have hchild := mem_of_modifier? hv
  obtain ⟨hvariant, htreatment⟩ := kind_of_declared root hn
  have hparent : ∀ m, Within root m → r.old ∈ m.children → m = n := by
    intro m hm hmem
    exact h.parent_unique r.old_nonempty hm hmem hwithin hchild
  refine ⟨?_, ?_⟩
  · intro m hm hkind hmem hrole
    obtain rfl := hparent m hm hmem
    have hcontainer : m.kind.isContainer = true := hkind.resolve_right hvariant
    -- the first body comes after the modifier, so the modifier is no body
    have hsome : (m.children.find? fun c => c.role == .body).isSome = true :=
      List.find?_isSome.mpr ⟨r.old, hmem, beq_iff_eq.mpr hrole⟩
    obtain ⟨b, hb⟩ := Option.isSome_iff_exists.mp hsome
    have hlast := (h m hm).bodyLast hcontainer r.old b hv hb
    obtain ⟨-, front, back, heq, hfront⟩ := List.find?_eq_some_iff_append.mp hb
    have hle := ((h.within hm).child (mem_of_body? hb)).start_le_stop
    have hne := r.old_nonempty
    have horder := (h m hm).inOrder
    rw [heq] at hmem horder
    rcases List.mem_append.mp hmem with hmem | hmem
    · have hnot := hfront r.old hmem
      rw [hrole] at hnot
      cases hnot
    · rcases List.mem_cons.mp hmem with hself | hmem
      · rw [← hself] at hlast
        omega
      · have hafter := (List.pairwise_cons.mp (List.pairwise_append.mp horder).2.1).1 r.old hmem
        omega
  · intro m hm hdescend hmem
    obtain rfl := hparent m hm hmem
    exact htreatment hdescend

end Discovery

end Tighten
