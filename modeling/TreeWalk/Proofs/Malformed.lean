import TreeWalk.Proofs.Origins
import TreeWalk.Proofs.Rendering

/-!
# When rendering fails

A node is rendered by way of some of its children, which are counted before any of them is looked
at, and the children are rendered from left to right. So a rendering fails exactly if it comes to a
node with a wrong number of children, and it fails as the first such node does, with parents before
their children.

* `Object.Malformed` : the nodes with a wrong number of children, each with its failure, as
  `Object.malformation?` finds it;
* `Object.shownParts`, `Object.visited` : the nodes that a rendering comes to, in order;
* `Object.failure_render` : the failure of a rendering is that of the first malformed node;
* `Object.Built` : what builders make of objects without a label;
* `render_fails_first` : all this for every object.
-/

namespace TreeWalk

/-! ## Malformed nodes -/

/-- The number of children that a node of the form has to have; the other forms need one at
least. -/
def Form.exactCount? : Form → Option Nat
  | .unary => some 2
  | .binary => some 3
  | .literal | .grouping | .expression | .print => none

/-- The failure of a node of the form with so many children, if that is a wrong number. -/
def Form.miscount? (form : Form) (found : Nat) : Option Failure :=
  match form.exactCount? with
  | none => if found = 0 then some .missingChild else none
  | some expected => if found = expected then none else some (.childCount expected found)

/-- The sort and the wording of that failure. -/
def Form.complaint (form : Form) (found : Nat) : FailureCategory × String :=
  match form.exactCount? with
  | none => (.index, "list index out of range")
  | some expected =>
    (.value,
      if found < expected then
        "not enough values to unpack (expected " ++ toString expected ++ ", got " ++
          toString found ++ ")"
      else "too many values to unpack (expected " ++ toString expected ++ ")")

namespace Object

/-- A node that has a wrong number of children, and how its rendering fails. -/
inductive Malformed : Object → Failure → Prop
  | childless {form : Form} (h : form.exactCount? = none) : Malformed (.node form []) .missingChild
  | few {form : Form} {expected : Nat} {children : List Object}
    (h : form.exactCount? = some expected) (hfew : children.length < expected) :
    Malformed (.node form children) (.tooFewChildren expected children.length)
  | many {form : Form} {expected : Nat} {children : List Object}
    (h : form.exactCount? = some expected) (hmany : expected < children.length) :
    Malformed (.node form children) (.tooManyChildren expected)

/-- The failure of a malformed node. -/
def malformation? : Object → Option Failure
  | .tree (some label) children =>
    (Form.ofLabel? label).bind fun form => form.miscount? children.length
  | _ => none

theorem malformation?_node (form : Form) (children : List Object) :
    (node form children).malformation? = form.miscount? children.length := by
  rw [node, malformation?, Form.ofLabel?_label]
  rfl

theorem exists_node {o : Object} {f : Failure} (h : o.malformation? = some f) :
    ∃ form children, o = node form children := by
  cases o with
  | tree label children =>
    cases label with
    | none => cases h
    | some label =>
      obtain ⟨form, hform, -⟩ := Option.bind_eq_some_iff.1 h
      obtain rfl := Form.label_of_ofLabel? hform
      exact ⟨form, children, rfl⟩
  | plain | value | operator | token => cases h

theorem malformed_iff {o : Object} {f : Failure} : o.Malformed f ↔ o.malformation? = some f := by
  constructor
  · intro h
    cases h with
    | childless h => rw [malformation?_node, Form.miscount?, h]; rfl
    | few h hfew =>
      simp only [malformation?_node, Form.miscount?, h, if_neg (Nat.ne_of_lt hfew),
        Failure.childCount, if_pos hfew]
    | many h hmany =>
      simp only [malformation?_node, Form.miscount?, h, if_neg (Nat.ne_of_gt hmany),
        Failure.childCount, if_neg (Nat.lt_asymm hmany)]
  · intro h
    obtain ⟨form, children, rfl⟩ := exists_node h
    rw [malformation?_node, Form.miscount?] at h
    split at h
    · next hexact =>
      split at h
      · next hnone =>
        cases List.eq_nil_of_length_eq_zero hnone
        cases h
        exact .childless hexact
      · cases h
    · next expected hexact =>
      split at h
      · cases h
      · next hne =>
        obtain rfl := Option.some.inj h
        rw [Failure.childCount]
        split
        · next hfew => exact .few hexact hfew
        · next hge => exact .many hexact (by omega)

/-! ## The way of a rendering -/

/-- Of the parts of a node, one for each child, those that its rendering is made of. -/
def shownParts {α : Type} (label : String) (parts : List α) : List α :=
  match Form.ofLabel? label with
  | some .literal | some .grouping | some .expression | some .print => parts.take 1
  | some .unary => (parts.drop 1).take 1
  | some .binary => parts.take 1 ++ (parts.drop 2).take 1
  | none => parts

mutual

/-- The nodes that the rendering of an object comes to, parents before their children. -/
def visited : Object → List Object
  | .tree (some label) children =>
    .tree (some label) children :: (shownParts label (visitedEach children)).flatten
  | o => [o]

def visitedEach : List Object → List (List Object)
  | [] => []
  | child :: rest => visited child :: visitedEach rest

end

theorem map_shownParts {α β : Type} (label : String) (parts : List α) (g : α → β) :
    (shownParts label parts).map g = shownParts label (parts.map g) := by
  unfold shownParts
  split <;> simp only [List.map_take, List.map_drop, List.map_append]

/-! ## First failures -/

end Object

/-- How something failed, if it did. -/
def Failure.of? {α : Type} : Except Failure α → Option Failure
  | .ok _ => none
  | .error f => some f

theorem Failure.of?_bind_ok {α β : Type} (x : Except Failure α) (g : α → β) :
    of? (x >>= fun a => .ok (g a)) = of? x := by
  cases x <;> rfl

theorem findSome?_flatten {α β : Type} (g : α → Option β) (parts : List (List α)) :
    parts.flatten.findSome? g = (parts.map (·.findSome? g)).findSome? id := by
  induction parts with
  | nil => rfl
  | cons part rest ih =>
    rw [List.flatten_cons, List.findSome?_append, ih, List.map_cons, List.findSome?_cons]
    cases part.findSome? g <;> rfl

namespace Object

theorem failure_mapM {α : Type} (parts : List (Except Failure α)) :
    Failure.of? (parts.mapM id) = parts.findSome? Failure.of? := by
  induction parts with
  | nil => rfl
  | cons part rest ih =>
    rw [List.mapM_cons, List.findSome?_cons]
    cases part with
    | error f => rfl
    | ok text =>
      rw [← ih]
      cases rest.mapM id <;> rfl

theorem failure_parenthesize (name : String) (parts : List (Except Failure String)) :
    Failure.of? (parenthesize name parts) = parts.findSome? Failure.of? := by
  rw [← failure_mapM]
  exact Failure.of?_bind_ok _ _

/-- A node fails by itself or else as the first of the parts that it is made of. -/
theorem failure_renderNode (label : String) (children : List Object)
    (part : Object → Except Failure String) :
    Failure.of? (renderNode label children (children.map part)) =
      (malformation? (.tree (some label) children)).or
        ((shownParts label (children.map part)).findSome? Failure.of?) := by
  have henclosed (keyword : String) :
      Failure.of? (renderNode.enclosed (children.map part) keyword) =
        (if children.length = 0 then some .missingChild else none).or
          (((children.map part).take 1).findSome? Failure.of?) := by
    cases children with
    | nil => rfl
    | cons child rest => exact failure_parenthesize keyword [part child]
  -- a wrong number of children is found before any part is looked at
  cases hform : Form.ofLabel? label with
  | none =>
    simp only [malformation?, renderNode, shownParts, hform]
    exact failure_parenthesize label _
  | some form =>
    simp only [malformation?, renderNode, shownParts, hform]
    cases form with
    | grouping => exact henclosed "group"
    | expression => exact henclosed ";"
    | print => exact henclosed "print"
    | literal =>
      cases children with
      | nil => rfl
      | cons child rest => exact (List.findSome?_singleton ..).symm
    | unary =>
      rcases children with _ | ⟨op, _ | ⟨operand, _ | ⟨_, rest⟩⟩⟩
      · rfl
      · rfl
      · exact failure_parenthesize op.shown [part operand]
      · simp [Failure.of?, Form.miscount?, Form.exactCount?]
    | binary =>
      rcases children with _ | ⟨left, _ | ⟨op, _ | ⟨right, _ | ⟨_, rest⟩⟩⟩⟩
      · rfl
      · rfl
      · rfl
      · exact failure_parenthesize op.shown [part left, part right]
      · simp [Failure.of?, Form.miscount?, Form.exactCount?]

mutual

/-- **The first malformed node decides**: the failure of a rendering is that of the first node on
its way that has one. -/
theorem failure_render : ∀ o : Object, Failure.of? o.render = o.visited.findSome? malformation?
  | .tree (some label) children => by
    have hparts := calc (shownParts label (children.map render)).findSome? Failure.of?
      _ = ((shownParts label (children.map render)).map Failure.of?).findSome? id := by
        rw [List.findSome?_map]
        rfl
      _ = (shownParts label ((visitedEach children).map (·.findSome? malformation?))).findSome?
          id := by rw [map_shownParts, failure_renderEach children]
      _ = (shownParts label (visitedEach children)).flatten.findSome? malformation? := by
        rw [findSome?_flatten, map_shownParts]
    rw [render, renderEach_eq_map, failure_renderNode, hparts, visited, List.findSome?_cons]
    cases malformation? (.tree (some label) children) <;> rfl
  | .tree none _ | .plain _ | .value _ | .operator _ | .token _ => rfl

theorem failure_renderEach (children : List Object) :
    (children.map render).map Failure.of? =
      (visitedEach children).map (·.findSome? malformation?) := by
  cases children with
  | nil => rfl
  | cons child rest =>
    rw [visitedEach, List.map_cons, List.map_cons, List.map_cons, failure_render child,
      failure_renderEach rest]

end

theorem render_error_iff {o : Object} {f : Failure} :
    o.render = .error f ↔ o.visited.findSome? malformation? = some f := by
  rw [← failure_render]
  cases o.render <;> simp [Failure.of?]

theorem render_ok_iff {o : Object} :
    (∃ text, o.render = .ok text) ↔ ∀ node ∈ o.visited, ∀ f, ¬ node.Malformed f := by
  have hnone : (∃ text, o.render = .ok text) ↔ Failure.of? o.render = none := by
    cases o.render <;> simp [Failure.of?]
  rw [hnone, failure_render, List.findSome?_eq_none_iff]
  simp only [malformed_iff, Option.eq_none_iff_forall_not_mem, Option.mem_def]

/-! ## What builders make -/

/-- An object without a label, or a node that a builder makes of such objects. -/
inductive Built : Object → Prop
  | leaf {o : Object} (h : o.label? = none) : Built o
  | literal {o t : Object} (h : o.literal = .ok t) : Built t
  | grouping {inner : Object} (h : Built inner) : Built inner.grouping
  | unary {op operand t : Object} (h : Object.unary op operand = .ok t) (ho : Built operand) :
    Built t
  | binary {left op right t : Object} (h : Object.binary left op right = .ok t)
    (hl : Built left) (hr : Built right) : Built t
  | expression {e : Object} (h : Built e) : Built e.expression
  | print {e : Object} (h : Built e) : Built e.print

theorem asOperator_ok {op o : Object} (h : op.asOperator = .ok o) : ∃ t, o = .token t := by
  unfold asOperator at h
  split at h
  · cases h
    exact ⟨_, rfl⟩
  · obtain ⟨t, -, ht⟩ := bind_eq_ok h
    cases ht
    exact ⟨t, rfl⟩

/-- No rendering of what builders make fails. -/
theorem Built.render {o : Object} (h : Built o) : ∃ text, o.render = .ok text := by
  induction h with
  | @leaf o h =>
    cases o with
    | tree label children =>
      cases h
      exact ⟨_, rfl⟩
    | plain | value | operator | token => exact ⟨_, rfl⟩
  | literal h =>
    obtain ⟨v, -, hv⟩ := bind_eq_ok h
    cases hv
    exact ⟨_, render_literal v⟩
  | @grouping inner _ ih =>
    obtain ⟨text, htext⟩ := ih
    rw [Object.grouping, render_grouping, htext]
    exact ⟨_, rfl⟩
  | @unary op operand _ h _ ih =>
    obtain ⟨o, ho, hv⟩ := bind_eq_ok h
    obtain ⟨t, rfl⟩ := asOperator_ok ho
    cases hv
    obtain ⟨text, htext⟩ := ih
    rw [render_unary, htext]
    exact ⟨_, rfl⟩
  | @binary left op right _ h _ _ ihl ihr =>
    obtain ⟨o, ho, hv⟩ := bind_eq_ok h
    obtain ⟨t, rfl⟩ := asOperator_ok ho
    cases hv
    obtain ⟨l, hl⟩ := ihl
    obtain ⟨r, hr⟩ := ihr
    rw [render_binary, hl, hr]
    exact ⟨_, rfl⟩
  | expression _ ih =>
    obtain ⟨text, htext⟩ := ih
    rw [render_expression, htext]
    exact ⟨_, rfl⟩
  | print _ ih =>
    obtain ⟨text, htext⟩ := ih
    rw [render_print, htext]
    exact ⟨_, rfl⟩

theorem Malformed.complaint {form : Form} {children : List Object} {f : Failure}
    (h : (node form children).Malformed f) :
    (f.category, f.message) = form.complaint children.length := by
  generalize ho : node form children = o at h
  cases h with
  | childless h =>
    obtain ⟨rfl, rfl⟩ := node_inj ho
    rw [Form.complaint, h]
    rfl
  | few h hfew =>
    obtain ⟨rfl, rfl⟩ := node_inj ho
    simp only [Form.complaint, h, if_pos hfew]
    rfl
  | many h hmany =>
    obtain ⟨rfl, rfl⟩ := node_inj ho
    simp only [Form.complaint, h, if_neg (Nat.lt_asymm hmany)]
    rfl

end Object

/-- **When and how a rendering fails.** It fails as the first malformed node on its way does, and if
there is none it gives a text; so it does not fail on what builders make. The failure of a malformed
node is that of its form, with the numbers of children that it has and should have. -/
theorem render_fails_first (o : Object) :
    (∀ f, o.render = .error f ↔ ∃ before node after, o.visited = before ++ node :: after ∧
      (∀ earlier ∈ before, ∀ g, ¬ earlier.Malformed g) ∧ node.Malformed f) ∧
    ((∃ text, o.render = .ok text) ↔ ∀ node ∈ o.visited, ∀ f, ¬ node.Malformed f) ∧
    (∀ form children f, (Object.node form children).Malformed f →
      (f.category, f.message) = form.complaint children.length) ∧
    (o.Built → ∃ text, o.render = .ok text) := by
  refine ⟨fun f => ?_, Object.render_ok_iff, fun _ _ _ => Object.Malformed.complaint,
    Object.Built.render⟩
  rw [Object.render_error_iff, List.findSome?_eq_some_iff]
  simp only [Object.malformed_iff, Option.eq_none_iff_forall_ne_some, ne_eq]
  constructor
  · rintro ⟨before, node, after, hvisited, hnode, hbefore⟩
    exact ⟨before, node, after, hvisited, hbefore, hnode⟩
  · rintro ⟨before, node, after, hvisited, hbefore, hnode⟩
    exact ⟨before, node, after, hvisited, hnode, hbefore⟩

/-- A unary node of three children fails before the one behind it and the one in it, and the
operator of the binary node before it is not looked at. -/
theorem render_fails_first_unary :
    let childless := Object.node .literal []
    let leaf := Object.node .literal [.value .nil]
    let many := Object.node .unary [.operator .minus, childless, leaf]
    (Object.tree (some "call") [.node .binary [leaf, childless, leaf], many, childless]).render =
      .error (.tooManyChildren 2) := by
  intro childless leaf many
  refine ((render_fails_first _).1 _).2
    ⟨[.tree (some "call") [.node .binary [leaf, childless, leaf], many, childless],
        .node .binary [leaf, childless, leaf], leaf, .value .nil, leaf, .value .nil],
      many, [childless, childless], rfl, ?_, .many rfl (by decide)⟩
  intro earlier h g hg
  rw [Object.malformed_iff] at hg
  have hnone : earlier.malformation? = none := by
    simp only [List.mem_cons, List.not_mem_nil, or_false] at h
    rcases h with rfl | rfl | rfl | rfl | rfl | rfl <;> rfl
  rw [hnone] at hg
  cases hg

end TreeWalk
