import Arborist.Proofs.Tree.Tour
import Mathlib.Data.List.Nodup

/-!
# Ways down to a node

The nodes from the root down to a node are known in two ways. A node knows the elements above it,
and going up gives its lineage. A visitor knows which nodes it has entered and not left; if it ends
the visit when it enters the target, these are the nodes on the way down (`Node.wayTo`).

Both are the same list: the way down from a node is the part of the lineage that begins with this
node, and there is none if the lineage does not have it (`Node.wayTo_eq_lineage_from`). What was
visited before the target has been left again, and is not on the way (`Visitor.exists_sought`).
-/

namespace Arborist

/-! ## The nodes that one comes to -/

/-- The nodes of a tree that one comes to from the root, by taking one of the children or the child
that fills a place. -/
inductive Tree.Reaches (tree : Tree) : Node → Prop
  | root {node : Node} : tree.root = .ok node → Reaches tree node
  | child {node child : Node} {children : List Node} :
      Reaches tree node → node.children = .ok children → child ∈ children → Reaches tree child
  | field {node child : Node} {name : String} :
      Reaches tree node → node.field name = .ok (some child) → Reaches tree child

/-- What fills a place is one of the children. -/
theorem Node.parentOf_of_field {node child : Node} {name : String}
    (h : node.field name = .ok (some child)) : node.ParentOf child := by
  unfold Node.field at h
  split at h
  · cases h
  · obtain ⟨children, hchildren, hget⟩ := bind_eq_ok_iff.mp h
    exact ⟨_, (Node.getElem?_children hchildren).mp (Except.ok.inj hget)⟩

theorem Tree.Reaches.contains {tree : Tree} {node : Node} (h : tree.Reaches node) :
    tree.Contains node := by
  induction h with
  | root hroot => exact ⟨_, hroot, .refl⟩
  | child _ hchildren hmem ih =>
      exact ih.of_within (.single ((Node.mem_children_iff hchildren).mp hmem))
  | field _ hfield ih => exact ih.of_within (.single (Node.parentOf_of_field hfield))

/-! ## Lineages -/

namespace Node

variable {tree : Tree} {text : String} {node parent top first second : Node} {nodes : List Node}

theorem Preorder.eq_of_path_eq (h : top.Preorder nodes) (hfirst : first ∈ nodes)
    (hsecond : second ∈ nodes) (hpath : first.path = second.path) : first = second := by
  have hnodup : (nodes.map Node.path).Nodup := by
    refine List.pairwise_map.mpr (h.pairwise_path_lt.imp fun hlt heq => ?_)
    rw [heq] at hlt
    exact List.lt_irrefl _ hlt
  exact List.inj_on_of_nodup_map hnodup hfirst hsecond hpath

/-- Nodes of one tree are told apart by their places, whatever else they share. -/
theorem same_iff (hvalid : tree.Valid text) (hfirst : tree.Contains first)
    (hsecond : tree.Contains second) : first.same second = true ↔ first = second := by
  constructor
  · intro hsame
    obtain ⟨root, hroot, hfirst⟩ := hfirst
    obtain ⟨root', hroot', hsecond⟩ := hsecond
    obtain rfl := Except.ok.inj (hroot.symm.trans hroot')
    have hvalid' : root.tree.Valid text := (Tree.root_eq_ok_iff.mp hroot).1 ▸ hvalid
    have hpreorder := (walk_of_valid hvalid').2
    refine hpreorder.eq_of_path_eq (hpreorder.mem_iff.mpr hfirst) (hpreorder.mem_iff.mpr hsecond) ?_
    exact congrArg List.reverse (beq_iff_eq.mp hsame)
  · rintro rfl
    exact beq_self_eq_true _

theorem ParentOf.lineage_eq (h : parent.ParentOf node) :
    node.lineage = parent.lineage ++ [node] := by
  rw [lineage, h.ancestors_eq, List.reverse_cons]
  rfl

/-- The lineage of a node goes through every node that it lies within. -/
theorem Within.exists_lineage_eq (h : node.Within top) :
    ∃ rest, node.lineage = top.ancestors.reverse ++ top :: rest := by
  induction h with
  | refl => exact ⟨[], rfl⟩
  | @tail parent child _ hstep ih =>
      obtain ⟨rest, hrest⟩ := ih
      exact ⟨rest ++ [child], by rw [hstep.lineage_eq, hrest]; simp⟩

end Node

/-! ## The search for a target -/

namespace Visitor

variable {target node : Node}

/-- Keeps the nodes that are entered and not yet left, nearest first, until the target is
entered. -/
def seeker (target : Node) : Visitor (List Node × Bool) where
  enter := some fun here _ state => .ok <|
    if here.same target then ((here :: state.1, true), .stop) else ((here :: state.1, false), .goOn)
  leave := some fun _ _ state => .ok ((state.1.tail, state.2), .goOn)

/-- What comes of the tour around a node: if the target lies within, its lineage from the node on
is on the trail, and otherwise the trail is what it was. -/
inductive Sought (target node : Node) (trail : List Node) : (List Node × Bool) × Signal → Prop
  | found {way : List Node} :
      target.Within node → target.lineage = node.ancestors.reverse ++ way →
      Sought target node trail ((way.reverse ++ trail, true), .stop)
  | passed : ¬target.Within node → Sought target node trail ((trail, false), .goOn)

/-- The tours around siblings end in the sibling that the target lies within. -/
theorem run_siblings {children : List Node} {tour : Node → List Notice} {trail : List Node}
    (h : ∀ child ∈ children, ∃ outcome,
      run (seeker target).answer (tour child) (trail, false) = .ok outcome ∧
        Sought target child trail outcome) :
    (∃ child ∈ children, ∃ way, target.Within child ∧
      target.lineage = child.ancestors.reverse ++ way ∧
      run (seeker target).answer (children.flatMap tour) (trail, false) =
        .ok ((way.reverse ++ trail, true), .stop)) ∨
    ((∀ child ∈ children, ¬target.Within child) ∧
      run (seeker target).answer (children.flatMap tour) (trail, false) =
        .ok ((trail, false), .goOn)) := by
  induction children with
  | nil => exact .inr ⟨by simp, rfl⟩
  | cons child children ih =>
      obtain ⟨⟨outcome, hrun, houtcome⟩, hrest⟩ := List.forall_mem_cons.mp h
      rw [List.flatMap_cons, run_append, hrun]
      cases houtcome with
      | found hwithin hway =>
          exact .inl ⟨child, List.mem_cons_self, _, hwithin, hway, rfl⟩
      | passed hnot =>
          rcases ih hrest with ⟨other, hmem, way, hwithin, hway, hrun⟩ | ⟨hnone, hrun⟩
          · exact .inl ⟨other, List.mem_cons_of_mem child hmem, way, hwithin, hway, hrun⟩
          · exact .inr ⟨List.forall_mem_cons.mpr ⟨hnot, hnone⟩, hrun⟩

/-- The search goes on past a node exactly if the target does not lie within it, and leaves the
trail as it was. -/
theorem exists_sought {parent : Option Node} {notices : List Notice}
    (h : node.Tour parent notices)
    (hsame : ∀ other : Node, other.Within node → (other.same target = true ↔ other = target))
    (trail : List Node) :
    ∃ outcome, run (seeker target).answer notices (trail, false) = .ok outcome ∧
      Sought target node trail outcome := by
  induction h generalizing trail with
  | @mk node parent children tour hchildren _ ih =>
      have hentering : (seeker target).answer ⟨.entering, node, parent⟩ (trail, false) = .ok
          (if node.same target then ((node :: trail, true), .stop)
            else ((node :: trail, false), .goOn)) := rfl
      rw [run, hentering]
      by_cases htarget : node = target
      · rw [if_pos ((hsame node .refl).mpr htarget)]
        subst htarget
        exact ⟨_, rfl, .found .refl rfl⟩
      · rw [if_neg (mt (hsame node .refl).mp htarget)]
        have hchild : ∀ child ∈ children, ∃ outcome,
            run (seeker target).answer (tour child) (node :: trail, false) = .ok outcome ∧
              Sought target child (node :: trail) outcome := by
          intro child hmem
          have hparent := (Node.mem_children_iff hchildren).mp hmem
          exact ih child hmem (fun other hother => hsame other (.head hparent hother)) _
        show ∃ outcome, run (seeker target).answer
          (children.flatMap tour ++ [⟨.leaving, node, parent⟩]) (node :: trail, false) = _ ∧ _
        rcases run_siblings hchild with ⟨child, hmem, way, hwithin, hway, hrun⟩ | ⟨hnone, hrun⟩
        · have hparent := (Node.mem_children_iff hchildren).mp hmem
          refine ⟨(((node :: way).reverse ++ trail, true), .stop), ?_, .found ?_ ?_⟩
          · rw [run_append, hrun, List.reverse_cons, List.append_assoc]
            rfl
          · exact .head hparent hwithin
          · rw [hway, hparent.ancestors_eq, List.reverse_cons, List.append_assoc]
            rfl
        · -- The node is left, and with this taken off the trail again.
          refine ⟨((trail, false), .goOn), by rw [run_append, hrun]; rfl, .passed fun hwithin => ?_⟩
          rcases Node.within_iff.mp hwithin with heq | hancestor
          · exact htarget heq.symm
          · obtain ⟨child, hparent, hwithin⟩ := Node.ancestorOf_iff_exists_parentOf.mp hancestor
            exact hnone child ((Node.mem_children_iff hchildren).mpr hparent) hwithin

end Visitor

/-! ## Two blocks that look the same -/

namespace Twins

/-- Two blocks of the same kind and extent, each with a body of the same kind and extent. -/
def block : Element :=
  ⟨"block", .extent 1 1,
    [.node (some "body") ⟨1, 1, true, false, false, some "body"⟩ []]⟩

def program : Node :=
  ⟨⟨"program", .extent 0 1,
    [.node (some block.kind) block.mark block.below,
      .node (some block.kind) block.mark block.below]⟩, []⟩

def left : Node := program.child 0 block

def right : Node := program.child 1 block

/-- The body of the block on the right. -/
def body : Node := right.child 0 ⟨"body", ⟨1, 1, true, false, false, some "body"⟩, []⟩

theorem valid : program.tree.Valid "x" := Tree.fitsIn_iff.mp (by decide +kernel)

theorem reaches_program : program.tree.Reaches program := .root (Tree.root_eq_ok_iff.mpr ⟨rfl, rfl⟩)

theorem children_program : program.children = .ok [left, right] := rfl

theorem reaches_left : program.tree.Reaches left :=
  .child reaches_program children_program (by simp)

theorem reaches_right : program.tree.Reaches right :=
  .child reaches_program children_program (by simp)

theorem field_body : right.field "body" = .ok (some body) := rfl

theorem reaches_body : program.tree.Reaches body := .field reaches_right field_body

end Twins

/-! ## Ways and lineages -/

namespace Node

variable {tree : Tree} {text : String} {top target : Node}

theorem not_mem_ancestors_self (h : tree.Contains top) : top ∉ top.ancestors := by
  rw [mem_ancestors_iff h]
  exact fun hancestor => hancestor.ne rfl

/-- The search ends. It finds the lineage of the target from the node on if the target lies within,
and nothing otherwise. -/
theorem wayTo_cases (hvalid : tree.Valid text) (htop : tree.Contains top)
    (htarget : tree.Contains target) :
    (∃ rest, target.Within top ∧ target.lineage = top.ancestors.reverse ++ top :: rest ∧
      top.wayTo target = .ok (top :: rest)) ∨
    (¬target.Within top ∧ top.wayTo target = .ok []) := by
  obtain ⟨notices, htour⟩ := exists_tour (htop.valid hvalid) none
  obtain ⟨outcome, hrun, houtcome⟩ := Visitor.exists_sought htour
    (fun other hother => same_iff hvalid (htop.of_within hother) htarget) []
  have hway : top.wayTo target = do
      let found ← top.visit (Visitor.seeker target) ([], false)
      return if found.2 then found.1.reverse else [] := rfl
  rw [hway, visit_eq_run htour, hrun]
  cases houtcome with
  | @found way hwithin hlineage =>
      obtain ⟨rest, hrest⟩ := hwithin.exists_lineage_eq
      obtain rfl := List.append_cancel_left (hlineage.symm.trans hrest)
      refine .inl ⟨rest, hwithin, hrest, ?_⟩
      show Except.ok ((top :: rest).reverse ++ []).reverse = _
      rw [List.append_nil, List.reverse_reverse]
  | passed hnot => exact .inr ⟨hnot, rfl⟩

/-- The way from a node down to another one is the lineage of the latter from the former on, if it
is there; and there is no way otherwise. From the root it is the whole lineage. -/
theorem wayTo_eq_lineage_from (hvalid : tree.Valid text) (htop : tree.Reaches top)
    (htarget : tree.Reaches target) :
    (top = target ∨ top ∈ target.ancestors → ∃ before after,
      target.lineage = before ++ top :: after ∧ top ∉ before ∧
        top.wayTo target = .ok (top :: after)) ∧
    (¬(top = target ∨ top ∈ target.ancestors) → top.wayTo target = .ok []) ∧
    ∀ root, tree.root = .ok root → root.wayTo target = .ok target.lineage := by
  have hwithin : top = target ∨ top ∈ target.ancestors ↔ target.Within top := by
    rw [mem_ancestors_iff htarget.contains, within_iff, eq_comm]
  rw [hwithin]
  refine ⟨fun hbelow => ?_, fun hapart => ?_, fun root hroot => ?_⟩
  · rcases wayTo_cases hvalid htop.contains htarget.contains with
      ⟨rest, -, hlineage, hway⟩ | ⟨hnot, -⟩
    · refine ⟨top.ancestors.reverse, rest, hlineage, ?_, hway⟩
      rw [List.mem_reverse]
      exact not_mem_ancestors_self htop.contains
    · exact absurd hbelow hnot
  · rcases wayTo_cases hvalid htop.contains htarget.contains with ⟨rest, hbelow, -⟩ | ⟨-, hway⟩
    · exact absurd hbelow hapart
    · exact hway
  · have hcontains : tree.Contains root := ⟨root, hroot, .refl⟩
    have hbelow : target.Within root := by
      obtain ⟨root', hroot', hbelow⟩ := htarget.contains
      obtain rfl := Except.ok.inj (hroot.symm.trans hroot')
      exact hbelow
    rcases wayTo_cases hvalid hcontains htarget.contains with
      ⟨rest, -, hlineage, hway⟩ | ⟨hnot, -⟩
    · have htopmost : root.ancestors = [] := by
        rw [ancestors, (Tree.root_eq_ok_iff.mp hroot).2]
        rfl
      rw [htopmost] at hlineage
      rw [hway, hlineage]
      rfl
    · exact absurd hbelow hnot

/-- The body of the right block is found from the right block and not from the left one, although
the blocks and their bodies look the same. -/
theorem wayTo_eq_lineage_from_twins :
    Twins.program.tree.Valid "x" ∧ Twins.program.tree.Reaches Twins.left ∧
      Twins.program.tree.Reaches Twins.right ∧ Twins.program.tree.Reaches Twins.body ∧
      Twins.right.wayTo Twins.body = .ok [Twins.right, Twins.body] ∧
      Twins.left.wayTo Twins.body = .ok [] ∧
      Twins.program.wayTo Twins.body = .ok [Twins.program, Twins.right, Twins.body] := by
  obtain ⟨-, -, hroot⟩ :=
    wayTo_eq_lineage_from Twins.valid Twins.reaches_right Twins.reaches_body
  obtain ⟨-, hapart, -⟩ :=
    wayTo_eq_lineage_from Twins.valid Twins.reaches_left Twins.reaches_body
  refine ⟨Twins.valid, Twins.reaches_left, Twins.reaches_right, Twins.reaches_body, rfl, ?_, ?_⟩
  · refine hapart ?_
    rintro (heq | hmem)
    · exact absurd (congrArg (fun node => node.above.length) heq) (by decide)
    · have hancestors : Twins.body.ancestors = [Twins.right, Twins.program] := rfl
      rw [hancestors, List.mem_pair] at hmem
      rcases hmem with heq | heq
      · exact absurd (congrArg Node.path heq) (by decide)
      · exact absurd (congrArg Node.path heq) (by decide)
  · exact hroot Twins.program (Tree.root_eq_ok_iff.mpr ⟨rfl, rfl⟩)

end Node

end Arborist
