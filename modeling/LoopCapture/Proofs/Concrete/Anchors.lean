import LoopCapture.Proofs.Concrete.Shape
import LoopCapture.Proofs.Outline.Sites

/-!
# Nodes and the tokens they are read from

The range of every node of a tree starts at a token, an identifier or a literal is a token itself, and
a block reaches from one brace to another.
-/

set_option autoImplicit false

namespace LoopCapture

open Tree

def Terminal.isLiteral : Terminal → Bool
  | .number _ => true
  | .string _ => true
  | .keyword .true => true
  | .keyword .false => true
  | .keyword .null => true
  | _ => false

/-- Some token starts where a range does. -/
def StartsAt (all : List Token) (loc : Loc) : Prop :=
  ∃ token ∈ all, token.loc.atStart = loc.atStart

/-- A node is where its tokens are. -/
structure Label.Anchored (all : List Token) (label : Label) : Prop where
  starts : StartsAt all label.loc
  name : ∀ name, label.form = .identifier name → ⟨.name name, label.loc⟩ ∈ all
  braces : label.form = .block → ∃ first last, ⟨.mark .openBrace, first⟩ ∈ all ∧
    ⟨.mark .closeBrace, last⟩ ∈ all ∧ label.loc = first.upTo last
  literal : label.form = .literal → ∃ terminal, terminal.isLiteral = true ∧ ⟨terminal, label.loc⟩ ∈ all

def AnchoredAll (all : List Token) (trees : List (Tree Label)) : Prop :=
  ∀ label ∈ preorderAll trees, label.Anchored all

/-- Forms that are neither an identifier nor a block nor a literal. -/
def Form.isPlain : Form → Bool
  | .identifier _ => false
  | .block => false
  | .literal => false
  | _ => true

variable {all : List Token}

theorem StartsAt.of_mem {token : Token} (member : token ∈ all) : StartsAt all token.loc :=
  ⟨token, member, rfl⟩

theorem Label.Anchored.plain {slot : Slot} {form : Form} {loc : Loc} (plain : form.isPlain = true)
    (starts : StartsAt all loc) : Label.Anchored all ⟨slot, form, loc⟩ where
  starts := starts
  name := by
    rintro name rfl
    cases plain
  braces := by
    rintro rfl
    cases plain
  literal := by
    rintro rfl
    cases plain

theorem Label.Anchored.of_literal {slot : Slot} {terminal : Terminal} {loc : Loc}
    (literal : terminal.isLiteral = true) (member : ⟨terminal, loc⟩ ∈ all) :
    Label.Anchored all ⟨slot, .literal, loc⟩ :=
  ⟨.of_mem member, nofun, nofun, fun _ => ⟨terminal, literal, member⟩⟩

namespace AnchoredAll

theorem nil : AnchoredAll all [] := fun _ member => absurd member List.not_mem_nil

theorem append {trees rest : List (Tree Label)} (first : AnchoredAll all trees)
    (others : AnchoredAll all rest) : AnchoredAll all (trees ++ rest) := by
  intro label member
  obtain ⟨tree, inTrees, inTree⟩ := mem_preorderAll.mp member
  obtain inFirst | inRest := List.mem_append.mp inTrees
  · exact first label (mem_preorderAll.mpr ⟨tree, inFirst, inTree⟩)
  · exact others label (mem_preorderAll.mpr ⟨tree, inRest, inTree⟩)

theorem cons {tree : Tree Label} {rest : List (Tree Label)} (first : AnchoredAll all [tree])
    (others : AnchoredAll all rest) : AnchoredAll all (tree :: rest) :=
  append first others

theorem node {label : Label} {children : List (Tree Label)} (here : label.Anchored all)
    (below : AnchoredAll all children) : AnchoredAll all [.node label children] := by
  intro other member
  simp only [preorderAll, preorder, List.append_nil, List.mem_cons] at member
  obtain rfl | inChildren := member
  · exact here
  · exact below other inChildren

theorem plain {slot : Slot} {form : Form} {loc : Loc} {children : List (Tree Label)}
    (plain : form.isPlain = true) (starts : StartsAt all loc) (below : AnchoredAll all children) :
    AnchoredAll all [.node ⟨slot, form, loc⟩ children] :=
  node (.plain plain starts) below

theorem ident {slot : Slot} {x : Ident} (member : ⟨.name x.name, x.loc⟩ ∈ all) :
    AnchoredAll all [Outline.ident slot x] := by
  refine node ⟨.of_mem member, ?_, nofun, nofun⟩ nil
  rintro name same
  cases same
  exact member

theorem commaItems {tree : Tree Label} (anchored : AnchoredAll all [tree]) :
    AnchoredAll all (Outline.commaItems tree) := by
  unfold Outline.commaItems
  split
  · obtain ⟨label, children⟩ := tree
    intro other member
    refine anchored other ?_
    simp only [preorderAll, preorder, List.append_nil]
    exact List.mem_cons_of_mem _ member
  · exact anchored

theorem inSlot {trees : List (Tree Label)} (anchored : AnchoredAll all trees) (slot : Slot) :
    AnchoredAll all (trees.map (Outline.inSlot slot)) := by
  induction trees with
  | nil => exact nil
  | cons tree rest ih =>
      obtain ⟨label, children⟩ := tree
      have first : AnchoredAll all [.node label children] := fun other member =>
        anchored other (List.mem_append_left _ (by simpa [preorderAll] using member))
      have here := first label (by simp [preorderAll, preorder])
      have below : AnchoredAll all children := fun other member =>
        first other (by simp [preorderAll, preorder, member])
      have others : AnchoredAll all rest := fun other member =>
        anchored other (List.mem_append_right _ member)
      exact cons (node ⟨here.starts, here.name, here.braces, here.literal⟩ below) (ih others)

end AnchoredAll

end LoopCapture
