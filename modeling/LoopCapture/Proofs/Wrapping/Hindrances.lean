import LoopCapture.Proofs.Concrete.Names
import LoopCapture.Program.Build
import LoopCapture.Proofs.Outline.Sites
import LoopCapture.Wrapping.Obstacle
import Mathlib.Data.List.DropRight

/-!
# What keeps the body of a loop in place

The search for obstacles carries the targets of jumps down the tree. Here every site of a body is
judged by its path alone, that is by the nodes of the body above it. The search finds the first site
in pre-order that is an obstacle by its path.
-/

set_option autoImplicit false

namespace LoopCapture

/-- The nodes of a body above one of its sites, the nearest one first. -/
def Outline.around (body : Outline) (site : Site) : List Node :=
  site.above.rdrop body.label.above.length

namespace Obstacle

open Tree Outline

/-- A `break` ends at a node around it: at its label, or without a label at a loop or a `switch`. -/
def EndsBreak (label : Option String) (upper : Node) : Prop :=
  match label with
  | some name => upper.form = .labeled name
  | none => upper.isLoop = true ∨ upper.form = .switch

/-- A `continue` ends at a node around it. -/
def EndsContinue (label : Option String) (upper : Node) : Prop :=
  match label with
  | some name => upper.form = .labeled name
  | none => upper.isLoop = true

/-- No function lies around. -/
def Open (around : List Node) : Prop := ∀ upper ∈ around, upper.isFunction = false

/-- No function other than arrow functions lies around. -/
def Shared (around : List Node) : Prop :=
  ∀ upper ∈ around, upper.isFunction = true → upper.form = .function .arrow

/-- A node is an obstacle, judged by the nodes of the body around it. Functions keep everything to
themselves, except that arrow functions share the `arguments` of the function around them. -/
def Hinders (around : List Node) (node : Node) : ObstacleKind → Prop
  | .break => Open around ∧
      ∃ label, node.form = .breaks label ∧ ∀ upper ∈ around, ¬ EndsBreak label upper
  | .continue => Open around ∧
      ∃ label, node.form = .continues label ∧ ∀ upper ∈ around, ¬ EndsContinue label upper
  | .return => Open around ∧ node.form = .returns
  | .var => Open around ∧ node.form = .declaration .var
  | .arguments => Shared around ∧ node.isReference = true ∧ node.name? = some "arguments"

theorem Open.shared {around : List Node} (isOpen : Open around) : Shared around := by
  intro upper member function
  rw [isOpen upper member] at function
  cases function

/-! ## One node -/

/-- The targets that the search has collected under some nodes. -/
def targetsOf (around : List Node) : Targets :=
  around.foldr (fun upper targets => targets.under upper.form) .empty

theorem targetsOf_spec (around : List Node) :
    (∀ name, name ∈ (targetsOf around).labels ↔ ∃ upper ∈ around, upper.form = .labeled name) ∧
    ((targetsOf around).loop = true ↔ ∃ upper ∈ around, upper.isLoop = true) ∧
    ((targetsOf around).switch = true ↔ ∃ upper ∈ around, upper.form = .switch) := by
  induction around with
  | nil => simp [targetsOf, Targets.empty]
  | cons upper around ih =>
      obtain ⟨labels, loop, switch⟩ := ih
      simp only [List.exists_mem_cons_iff, ← labels, ← loop, ← switch]
      show (∀ name, name ∈ ((targetsOf around).under upper.form).labels ↔ _) ∧
        (((targetsOf around).under upper.form).loop = true ↔ _) ∧
        (((targetsOf around).under upper.form).switch = true ↔ _)
      cases form : upper.form <;> simp [Targets.under, Node.isLoop, Form.isLoop, form]
      intro name
      rw [eq_comm]

theorem keepBreak_targetsOf (label : Option String) (around : List Node) :
    (targetsOf around).keepBreak label = false ↔ ∀ upper ∈ around, ¬ EndsBreak label upper := by
  obtain ⟨labels, loop, switch⟩ := targetsOf_spec around
  rw [← Bool.not_eq_true, ← not_exists_mem]
  cases label with
  | none => simp [Targets.keepBreak, EndsBreak, loop, switch, and_or_left, exists_or]
  | some name => simp [Targets.keepBreak, EndsBreak, labels]

theorem keepContinue_targetsOf (label : Option String) (around : List Node) :
    (targetsOf around).keepContinue label = false ↔
      ∀ upper ∈ around, ¬ EndsContinue label upper := by
  obtain ⟨labels, loop, -⟩ := targetsOf_spec around
  rw [← Bool.not_eq_true, ← not_exists_mem]
  cases label with
  | none => simp [Targets.keepContinue, EndsContinue, loop]
  | some name => simp [Targets.keepContinue, EndsContinue, labels]

theorem usesArguments_iff {node : Node} :
    usesArguments node = true ↔ node.isReference = true ∧ node.name? = some "arguments" := by
  simp [usesArguments, and_comm]

theorem ofNode?_eq_some_iff {around : List Node} {node : Node} {kind : ObstacleKind}
    (outside : Open around) :
    ofNode? (targetsOf around) node = some kind ↔ Hinders around node kind := by
  have shared := outside.shared
  unfold ofNode? Hinders
  cases form : node.form with
  | breaks label => cases kind <;> simp [outside, Node.name?, form, keepBreak_targetsOf]
  | continues label => cases kind <;> simp [outside, Node.name?, form, keepContinue_targetsOf]
  | returns => cases kind <;> simp [outside, Node.name?, form]
  | declaration declared =>
      cases declared <;> cases kind <;> simp [outside, usesArguments, Node.name?, form]
  | _ => cases kind <;> simp [usesArguments_iff, Node.name?, form, shared]

theorem not_hinders_of_function {around : List Node} {node : Node}
    (function : node.isFunction = true) (kind : ObstacleKind) : ¬ Hinders around node kind := by
  unfold Node.isFunction at function
  cases form : node.form <;> simp [form, Form.isFunction] at function
  cases kind <;> simp [Hinders, Node.name?, form]

/-! ## The first obstacle -/

/-- What a search for the first obstacle among some sites of a body finds. -/
inductive First (body : Outline) : List Site → Option Obstacle → Prop
  | nil : First body [] none
  | here {site : Site} {rest : List Site} {kind : ObstacleKind} :
      Hinders (body.around site) site.node kind →
      First body (site :: rest) (some ⟨kind, site.node.loc.line⟩)
  | later {site : Site} {rest : List Site} {found : Option Obstacle} :
      (∀ kind, ¬ Hinders (body.around site) site.node kind) → First body rest found →
      First body (site :: rest) found

namespace First

variable {body : Outline} {sites others : List Site} {found next : Option Obstacle}

theorem append (first : First body sites found) (second : First body others next) :
    First body (sites ++ others) (found.or next) := by
  induction first with
  | nil => exact second
  | here hinders => exact .here hinders
  | later free _ ih => exact .later free ih

theorem of_free (free : ∀ site ∈ sites, ∀ kind, ¬ Hinders (body.around site) site.node kind) :
    First body sites none := by
  induction sites with
  | nil => exact .nil
  | cons site sites ih =>
      obtain ⟨here, later⟩ := List.forall_mem_cons.mp free
      exact .later here (ih later)

theorem eq_none_iff (first : First body sites found) :
    found = none ↔ ∀ site ∈ sites, ∀ kind, ¬ Hinders (body.around site) site.node kind := by
  induction first with
  | nil => simp
  | here hinders =>
      constructor
      · nofun
      · intro free
        exact absurd hinders (free _ List.mem_cons_self _)
  | later free _ ih =>
      rw [ih, List.forall_mem_cons]
      exact (and_iff_right free).symm

theorem exists_split {obstacle : Obstacle} (first : First body sites (some obstacle)) :
    ∃ before site after, sites = before ++ site :: after ∧
      (∀ earlier ∈ before, ∀ kind, ¬ Hinders (body.around earlier) earlier.node kind) ∧
      Hinders (body.around site) site.node obstacle.kind ∧ obstacle.line = site.node.loc.line := by
  generalize searched : some obstacle = found at first
  induction first with
  | nil => cases searched
  | @here site rest kind hinders =>
      obtain rfl := Option.some.inj searched
      exact ⟨[], site, rest, rfl, by simp, hinders, rfl⟩
  | @later site rest found free _ ih =>
      obtain ⟨before, other, after, split, earlier, known⟩ := ih searched
      refine ⟨site :: before, other, after, by rw [split, List.cons_append], ?_, known⟩
      exact List.forall_mem_cons.mpr ⟨free, earlier⟩

end First

/-! ## The search -/

variable {body : Outline} {inner : List Node}

theorem around_eq {site : Site} (above : site.above = inner ++ body.label.above) :
    body.around site = inner := by
  simp [around, List.rdrop, above]

/-- Nothing inside a function with its own `arguments` is an obstacle. -/
theorem free_of_not_shared (function : ¬ Shared inner) {trees : List Outline}
    (rooted : RootedAll (inner ++ body.label.above) trees) :
    ∀ site ∈ preorderAll trees, ∀ kind, ¬ Hinders (body.around site) site.node kind := by
  intro site member kind hinders
  obtain ⟨tree, among, inside⟩ := mem_preorderAll.mp member
  have rootedTree := rootedAll_iff.mp rooted tree among
  obtain ⟨below, split⟩ : inner ++ body.label.above <:+ site.above := by
    have suffix := rootedTree.path_suffix inside
    rw [Site.path, rootedTree.above_eq] at suffix
    rcases List.suffix_cons_iff.mp suffix with same | further
    · exact ⟨[], (List.cons.inj same).2⟩
    · exact (List.suffix_cons _ _).trans further
  rw [around_eq (by rw [← split, List.append_assoc])] at hinders
  have notShared : ¬ Shared (below ++ inner) := fun shared =>
    function fun upper member => shared upper (List.mem_append_right _ member)
  have notOpen : ¬ Open (below ++ inner) := fun isOpen => notShared isOpen.shared
  cases kind with
  | arguments => exact notShared hinders.1
  | _ => exact notOpen hinders.1

theorem argumentsIn?_eq (site : Site) (children : List Outline) :
    argumentsIn? (.node site children) =
      if site.node.isFunction = true ∧ site.node.form ≠ .function .arrow then none
      else if usesArguments site.node then some ⟨.arguments, site.node.loc.line⟩
      else argumentsInAll? children := by
  rw [argumentsIn?]
  cases form : site.node.form with
  | function kind => cases kind <;> simp [Node.isFunction, Form.isFunction, form]
  | _ => simp [Node.isFunction, Form.isFunction, form]

theorem find?_eq (targets : Targets) (site : Site) (children : List Outline) :
    find? targets (.node site children) =
      if site.node.isFunction = true then argumentsIn? (.node site children)
      else ((ofNode? targets site.node).map (⟨·, site.node.loc.line⟩)).or
        (findIn? (targets.under site.node.form) children) := by
  rw [find?]
  cases form : site.node.form with
  | function kind => cases kind <;> simp [Node.isFunction, Form.isFunction, form, argumentsIn?]
  | _ => cases judged : ofNode? targets site.node <;> simp [Node.isFunction, Form.isFunction, form]

/-- The search in a function, given what it finds under an arrow function. -/
theorem first_function {site : Site} {children : List Outline}
    (rooted : Rooted (inner ++ body.label.above) (.node site children))
    (function : site.node.isFunction = true)
    (inside : site.node.form = .function .arrow →
      First body (preorderAll children) (argumentsInAll? children)) :
    First body (preorder (.node site children)) (argumentsIn? (.node site children)) := by
  have unnamed : usesArguments site.node = false := by
    unfold Node.isFunction at function
    cases form : site.node.form <;> simp [form, Form.isFunction] at function
    simp [usesArguments, Node.name?, form]
  apply First.later (not_hinders_of_function function)
  rw [argumentsIn?_eq]
  by_cases arrow : site.node.form = .function .arrow
  · simpa [arrow, unnamed] using inside arrow
  · rw [if_pos ⟨function, arrow⟩]
    have below : RootedAll ((site.node :: inner) ++ body.label.above) children := rooted.2
    refine .of_free (free_of_not_shared ?_ below)
    intro shared
    exact arrow (shared site.node List.mem_cons_self function)

mutual

theorem first_argumentsIn? : ∀ {tree : Outline} {inner : List Node}, Shared inner → ¬ Open inner →
    Rooted (inner ++ body.label.above) tree → First body tree.preorder (argumentsIn? tree)
  | .node site children, inner, shared, closed, rooted => by
      have below : RootedAll ((site.node :: inner) ++ body.label.above) children := rooted.2
      have deeper : ¬ Open (site.node :: inner) := fun isOpen =>
        closed fun upper member => isOpen upper (List.mem_cons_of_mem _ member)
      by_cases function : site.node.isFunction = true
      · apply first_function rooted function
        intro arrow
        exact first_argumentsInAll? (List.forall_mem_cons.mpr ⟨fun _ => arrow, shared⟩) deeper below
      · rw [argumentsIn?_eq, if_neg (fun own => function own.1)]
        split
        · rename_i uses
          have hinders : Hinders (body.around site) site.node .arguments := by
            rw [around_eq rooted.1]
            exact ⟨shared, usesArguments_iff.mp uses⟩
          exact .here hinders
        · rename_i unused
          have sharedToo :=
            List.forall_mem_cons.mpr ⟨fun isFunction => absurd isFunction function, shared⟩
          refine .later ?_ (first_argumentsInAll? sharedToo deeper below)
          intro kind hinders
          rw [around_eq rooted.1] at hinders
          cases kind with
          | arguments => exact unused (usesArguments_iff.mpr hinders.2)
          | _ => exact closed hinders.1

theorem first_argumentsInAll? : ∀ {trees : List Outline} {inner : List Node}, Shared inner →
    ¬ Open inner → RootedAll (inner ++ body.label.above) trees →
    First body (preorderAll trees) (argumentsInAll? trees)
  | [], _, _, _, _ => .nil
  | _ :: _, _, shared, closed, rooted =>
      (first_argumentsIn? shared closed rooted.1).append
        (first_argumentsInAll? shared closed rooted.2)

end

mutual

theorem first_find? : ∀ {tree : Outline} {inner : List Node}, Open inner →
    Rooted (inner ++ body.label.above) tree →
    First body tree.preorder (find? (targetsOf inner) tree)
  | .node site children, inner, isOpen, rooted => by
      have below : RootedAll ((site.node :: inner) ++ body.label.above) children := rooted.2
      rw [find?_eq]
      by_cases function : site.node.isFunction = true
      · rw [if_pos function]
        apply first_function rooted function
        intro arrow
        have shared := List.forall_mem_cons.mpr ⟨fun _ => arrow, isOpen.shared⟩
        refine first_argumentsInAll? shared ?_ below
        intro stillOpen
        rw [stillOpen site.node List.mem_cons_self] at function
        cases function
      · rw [if_neg function]
        have judged (kind : ObstacleKind) : ofNode? (targetsOf inner) site.node = some kind ↔
            Hinders (body.around site) site.node kind := by
          rw [around_eq rooted.1]
          exact ofNode?_eq_some_iff isOpen
        cases found : ofNode? (targetsOf inner) site.node with
        | some kind => exact .here ((judged kind).mp found)
        | none =>
            refine .later ?_ (first_findIn?
              (List.forall_mem_cons.mpr ⟨Bool.not_eq_true _ ▸ function, isOpen⟩) below)
            intro kind hinders
            rw [(judged kind).mpr hinders] at found
            cases found

theorem first_findIn? : ∀ {trees : List Outline} {inner : List Node}, Open inner →
    RootedAll (inner ++ body.label.above) trees →
    First body (preorderAll trees) (findIn? (targetsOf inner) trees)
  | [], _, _, _ => .nil
  | _ :: _, _, isOpen, rooted =>
      (first_find? isOpen rooted.1).append (first_findIn? isOpen rooted.2)

end

theorem first_obstacle? {above : List Node} (rooted : Rooted above body) :
    First body body.sites body.obstacle? := by
  have placed : Rooted ([] ++ body.label.above) body := rooted.above_eq.symm ▸ rooted
  exact first_find? (by simp [Open]) placed

end Obstacle

theorem Obstacle.message_eq (obstacle : Obstacle) (name : String) : obstacle.message name =
    "can't transform loop closure due to use of " ++ obstacle.kind.text ++ " at line " ++
      toString obstacle.line ++ ". " ++ name ++ " is defined outside closure, inside loop" := by
  unfold message
  simp only [String.append_assoc]
  rfl

namespace Outline

open Tree Obstacle

/-- The body of a loop can be moved exactly if none of its sites is an obstacle. Otherwise the
reason names the kind and the line of the first obstacle in pre-order. -/
theorem reason_of_first_obstacle {program : Program} {loop body : Outline}
    (inside : loop ∈ (ofProgram program).subtrees) (bodied : loop.loopBody? = some body)
    (name : String) :
    (body.obstacle?.map (·.message name) = none ↔
      ∀ site ∈ body.sites, ∀ kind, ¬ Hinders (body.around site) site.node kind) ∧
    ∀ reason, body.obstacle?.map (·.message name) = some reason →
      ∃ before site after kind, body.sites = before ++ site :: after ∧
        (∀ earlier ∈ before, ∀ other, ¬ Hinders (body.around earlier) earlier.node other) ∧
        Hinders (body.around site) site.node kind ∧
        reason = "can't transform loop closure due to use of " ++ kind.text ++ " at line " ++
          toString site.node.loc.line ++ ". " ++ name ++
            " is defined outside closure, inside loop" := by
  have among := child_mem_subtrees inside (List.mem_of_find?_eq_some bodied)
  have first := first_obstacle? ((rooted_ofProgram program).subtree among)
  constructor
  · rw [Option.map_eq_none_iff]
    exact first.eq_none_iff
  · intro reason reported
    obtain ⟨obstacle, found, worded⟩ := Option.map_eq_some_iff.mp reported
    rw [found] at first
    obtain ⟨before, site, after, split, earlier, hinders, line⟩ := first.exists_split
    refine ⟨before, site, after, obstacle.kind, split, earlier, hinders, ?_⟩
    rw [← worded, message_eq, line]

/-- A labelled `break` that stays in the body, an `arguments` behind two arrow functions and a
`break` out of the body. -/
theorem reason_of_shared_arguments : ∃ (program : Program) (loop body : Outline),
    Program.ofText ("while (0) \x7b a: while (0) break a;\n" ++
      "f(() => () => arguments); break; \x7d").toList = .ok program ∧
    loop ∈ (ofProgram program).subtrees ∧ loop.loopBody? = some body ∧
    body.obstacle?.map (·.message "x") = some ("can't transform loop closure due to use of " ++
      "arguments at line 2. x is defined outside closure, inside loop") ∧
    ∃ before site after kind, body.sites = before ++ site :: after ∧
      (∀ earlier ∈ before, ∀ other, ¬ Hinders (body.around earlier) earlier.node other) ∧
      Hinders (body.around site) site.node kind := by
  have checked : ((Program.ofText ("while (0) \x7b a: while (0) break a;\n" ++
      "f(() => () => arguments); break; \x7d").toList).toOption.any fun program =>
        (ofProgram program).subtrees[1]?.any fun loop =>
        (loopBody? loop).any fun body => body.obstacle?.map (·.message "x") ==
          some ("can't transform loop closure due to use of " ++
            "arguments at line 2. x is defined outside closure, inside loop")) = true := by
    decide +kernel
  generalize String.toList _ = source at checked ⊢
  obtain ⟨program, parsed, checked⟩ := Program.exists_of_any checked
  obtain ⟨loop, found, passed⟩ := (Option.any_eq_true _ _).mp checked
  obtain ⟨body, bodied, reported⟩ := (Option.any_eq_true _ _).mp passed
  have inside := List.mem_of_getElem? found
  obtain ⟨before, site, after, kind, split, earlier, hinders, -⟩ :=
    (reason_of_first_obstacle inside bodied "x").2 _ (beq_iff_eq.mp reported)
  exact ⟨program, loop, body, parsed, inside, bodied, beq_iff_eq.mp reported, before, site, after,
    kind, split, earlier, hinders⟩

end Outline

end LoopCapture
