import CommandEngine.Path.Lookup
import CommandEngine.Proofs.Forest.Growth
import Mathlib.Data.List.Forall2
import Mathlib.Data.List.TakeWhile
/-!
# Paths address the nodes of the tree proper

A path goes down and a lineage goes up, and in a well-formed forest they are the same chain of nodes
read in the two directions. Each step of a path is determined by the node it leads to: it has the
name of that node, and it passes over the earlier siblings of the same name (`Forest.Names`). So a
node below another is reached from there by one path only, whose steps name the nodes of its lineage
from the top (`Linked.follow?_eq_some_iff`).

That there is such a path is a matter of numbers alone. A step passes over at most as many siblings
as a machine word can count, which is enough as long as the arena has no more places than that.
-/

namespace CommandEngine.Forest

variable {α : Type} {f : Forest α} {nameOf : α → String}
variable {handle parent child start head : Handle} {steps : List PathStep}

/-- The children of the same parent that stand before a node. -/
def elders (f : Forest α) (handle : Handle) : List Handle :=
  match f.parent? handle with
  | some parent => (f.children parent).takeWhile (· != handle)
  | none => []

/-- The step that leads to a node from its parent: the name of the node, and the number of earlier
siblings of that name. -/
structure Names (nameOf : α → String) (f : Forest α) (step : PathStep) (handle : Handle) :
    Prop where
  name : (f.label? handle).map nameOf = some step.name
  /-- The step passes over the earlier siblings of that name, and no others. -/
  skip : (f.elders handle).countP (fun elder => (f.label? elder).map nameOf == some step.name) =
    step.skip.toNat

/-- No two steps name the same node. -/
theorem leftUnique_names : Relator.LeftUnique (f.Names nameOf) := by
  intro step handle other names names'
  have hname := names.name
  rw [names'.name, Option.some.injEq] at hname
  have hskip := names.skip
  rw [← hname, names'.skip, UInt64.toNat_inj] at hskip
  obtain ⟨name, skip⟩ := step
  obtain ⟨name', skip'⟩ := other
  cases hname
  cases hskip
  rfl

/-- A value that stands only once in a list stands behind those before it. -/
theorem getElem?_append_cons_eq_some_iff {β : Type} {front back : List β} {value : β}
    (before : value ∉ front) (after : value ∉ back) (index : Nat) :
    (front ++ value :: back)[index]? = some value ↔ front.length = index := by
  constructor
  · intro found
    rcases Nat.lt_trichotomy index front.length with less | equal | more
    · rw [List.getElem?_append_left less] at found
      exact absurd (List.mem_of_getElem? found) before
    · exact equal.symm
    · obtain ⟨further, rfl⟩ := Nat.exists_eq_add_of_lt more
      rw [List.getElem?_append_right (by omega), Nat.add_assoc, Nat.add_sub_cancel_left,
        List.getElem?_cons_succ] at found
      exact absurd (List.mem_of_getElem? found) after
  · rintro rfl
    simp

/-- In a list without repetitions, the value at a place among those that are selected is the one
with as many selected values before it. -/
theorem getElem?_filter_eq_some_iff {β : Type} [DecidableEq β] {values : List β}
    (hnodup : values.Nodup) (select : β → Bool) (index : Nat) (value : β) :
    (values.filter select)[index]? = some value ↔
      value ∈ values ∧ select value = true ∧
        (values.takeWhile (· != value)).countP select = index := by
  by_cases member : value ∈ values
  · obtain ⟨front, back, rfl, before⟩ := List.eq_append_cons_of_mem member
    have after : value ∉ back := by
      rw [List.nodup_middle, List.nodup_cons, List.mem_append, not_or] at hnodup
      exact hnodup.1.2
    have others : ∀ other ∈ front, (other != value) = true := by
      intro other here
      exact bne_iff_ne.2 fun same => before (same ▸ here)
    have hfront : (front ++ value :: back).takeWhile (· != value) = front := by
      rw [List.takeWhile_append_of_pos others, List.takeWhile_cons_of_neg (by simp),
        List.append_nil]
    rw [hfront, List.countP_eq_length_filter, List.filter_append]
    by_cases selected : select value = true
    · rw [List.filter_cons_of_pos selected,
        getElem?_append_cons_eq_some_iff (before ∘ List.mem_of_mem_filter)
          (after ∘ List.mem_of_mem_filter)]
      simp [selected]
    · rw [List.filter_cons_of_neg selected, ← List.filter_append]
      refine iff_of_false (fun found => selected ?_) fun found => selected found.2.1
      exact (List.mem_filter.1 (List.mem_of_getElem? found)).2
  · refine iff_of_false (fun found => member ?_) fun found => member found.1
    exact List.mem_of_mem_filter (List.mem_of_getElem? found)

namespace Linked

variable (wf : f.Linked)
include wf

/-- A step leads to the one child that it names. -/
theorem stepTo?_eq_some_iff {step : PathStep} :
    f.stepTo? nameOf parent step = some child ↔
      f.parent? child = some parent ∧ f.Names nameOf step child := by
  rw [stepTo?, childrenNamed, getElem?_filter_eq_some_iff (wf.nodup_children parent),
    wf.mem_children_iff, beq_iff_eq]
  refine and_congr_right fun hparent => ?_
  have helders : f.elders child = (f.children parent).takeWhile (· != child) := by
    rw [elders, hparent]
  rw [← helders]
  exact ⟨fun ⟨name, skip⟩ => ⟨name, skip⟩, fun names => ⟨names.name, names.skip⟩⟩

/-- A node stands behind its elders, so the arena has more places than there are elders. -/
theorem length_elders_lt (known : f.contains handle = true) :
    (f.elders handle).length < f.nodes.size := by
  have hnodup : (handle :: f.elders handle).Nodup ∧
      ∀ elder ∈ f.elders handle, f.contains elder = true := by
    unfold elders
    split
    · rename_i parent hparent
      refine ⟨List.nodup_cons.2 ⟨fun here => ?_,
        (wf.nodup_children parent).sublist (List.takeWhile_sublist _)⟩, fun elder here => ?_⟩
      · simpa using List.mem_takeWhile_imp here
      · exact wf.contains_child ((List.takeWhile_sublist _).subset here)
    · simp
  exact length_le_of_nodup hnodup.1 (List.forall_mem_cons.2 ⟨known, hnodup.2⟩)

/-- A node of an arena that a machine word can count is named by a step. -/
theorem exists_names (fits : f.nodes.size ≤ UInt64.size) (known : f.contains handle = true) :
    ∃ step, f.Names nameOf step handle := by
  obtain ⟨node, hnode⟩ := exists_node?_of_contains known
  generalize hcount : ((f.elders handle).countP fun elder =>
    (f.label? elder).map nameOf == some (nameOf node.label)) = count
  have within : count < UInt64.size := by
    have hcountP : count ≤ (f.elders handle).length := hcount ▸ List.countP_le_length
    have helders := wf.length_elders_lt known
    omega
  refine ⟨⟨nameOf node.label, UInt64.ofNat count⟩, ?_, ?_⟩
  · rw [label?, hnode]
    rfl
  · rw [UInt64.toNat_ofNat_of_lt' within]
    exact hcount

end Linked

/-- A member of a lineage has the rest from there as its own lineage. -/
theorem IsLineage.of_append {front back line : List Handle} (hline : f.IsLineage handle line)
    (split : line = front ++ child :: back) : f.IsLineage child (child :: back) := by
  induction hline generalizing front with
  | root hparent =>
      cases front with
      | nil =>
          cases split
          exact .root hparent
      | cons first rest => simp at split
  | step hparent above ih =>
      cases front with
      | nil =>
          cases split
          exact .step hparent above
      | cons first rest => exact ih (List.cons.inj split).2

namespace Linked

variable (wf : f.Linked)
include wf

/-- A node with another directly above it in a lineage is a child of that one. -/
theorem parent?_of_lineage_eq {front : List Handle}
    (hline : f.lineage handle = front ++ child :: f.lineage parent) :
    f.parent? child = some parent := by
  have hchild := (wf.isLineage_lineage handle).of_append hline
  have hparent := wf.isLineage_lineage parent
  generalize f.lineage parent = line at hchild hparent
  cases hchild with
  | root => cases hparent
  | step hup above => rw [hup, ← Option.some.injEq, ← above.head?_eq, hparent.head?_eq]

/-- Steps lead from one node to another exactly when they name, from the top, the nodes that the
lineage of the second has below the first. -/
theorem follow?_eq_some_iff : f.follow? nameOf start steps = some handle ↔
    ∃ chain, f.lineage handle = chain.reverse ++ f.lineage start ∧
      List.Forall₂ (f.Names nameOf) steps chain := by
  induction steps generalizing start with
  | nil =>
      rw [follow?, Option.some.injEq]
      constructor
      · rintro rfl
        exact ⟨[], rfl, .nil⟩
      · rintro ⟨chain, hline, hnames⟩
        cases hnames
        have hfirst := (wf.isLineage_lineage handle).head?_eq
        rw [hline, List.reverse_nil, List.nil_append,
          (wf.isLineage_lineage start).head?_eq] at hfirst
        exact Option.some.inj hfirst
  | cons step rest ih =>
      have hfollow : f.follow? nameOf start (step :: rest) = some handle ↔
          ∃ child, f.stepTo? nameOf start step = some child ∧
            f.follow? nameOf child rest = some handle := by
        rw [follow?]
        cases f.stepTo? nameOf start step <;> simp
      rw [hfollow]
      constructor
      · rintro ⟨child, hstep, hrest⟩
        obtain ⟨hparent, names⟩ := wf.stepTo?_eq_some_iff.1 hstep
        obtain ⟨chain, hline, hnames⟩ := ih.1 hrest
        refine ⟨child :: chain, ?_, .cons names hnames⟩
        rw [hline, wf.lineage_of_parent hparent, List.reverse_cons, List.append_assoc]
        rfl
      · rintro ⟨chain, hline, hnames⟩
        cases hnames with
        | @cons _ child _ chain names hnames =>
            rw [List.reverse_cons, List.append_assoc] at hline
            have hparent := wf.parent?_of_lineage_eq hline
            refine ⟨child, wf.stepTo?_eq_some_iff.2 ⟨hparent, names⟩, ih.2 ⟨chain, ?_, hnames⟩⟩
            rw [hline, wf.lineage_of_parent hparent]
            rfl

/-- A node that steps lead to is a node. -/
theorem contains_of_follow?_eq_some (known : f.contains start = true)
    (hfollow : f.follow? nameOf start steps = some handle) : f.contains handle = true := by
  obtain ⟨chain, hline, -⟩ := wf.follow?_eq_some_iff.1 hfollow
  cases hparent : f.parent? handle with
  | some parent => exact contains_of_parent?_eq_some hparent
  | none =>
      -- A node without a parent has nobody above it, so the walk has not left its start.
      have above : start ∈ f.lineage handle := by
        rw [hline]
        exact List.mem_append_right _ (wf.mem_lineage_self start)
      rw [wf.lineage_of_root hparent, List.mem_singleton] at above
      exact above ▸ known

end Linked

/-! ## Paths -/

private theorem follow?_append (nameOf : α → String) (f : Forest α) (start : Handle)
    (front back : List PathStep) :
    f.follow? nameOf start (front ++ back) =
      (f.follow? nameOf start front).bind fun middle => f.follow? nameOf middle back := by
  induction front generalizing start with
  | nil => rfl
  | cons step rest ih =>
      rw [List.cons_append, follow?, follow?]
      cases f.stepTo? nameOf start step with
      | none => rfl
      | some child => exact ih child

/-- A path in two parts leads where the second part leads from where the first part leads. -/
theorem Linked.get?_append (wf : f.Linked) (nameOf : α → String) (start : Handle)
    (front back : List PathStep) :
    f.get? nameOf start ⟨front ++ back⟩ =
      (f.get? nameOf start ⟨front⟩).bind fun middle => f.get? nameOf middle ⟨back⟩ := by
  by_cases known : f.contains start = true
  · rw [get?, if_pos known, get?, if_pos known, follow?_append]
    refine Option.bind_congr fun middle hmiddle => ?_
    rw [get?, if_pos (wf.contains_of_follow?_eq_some known hmiddle)]
  · rw [get?, if_neg known, get?, if_neg known]
    rfl

/-- A list whose values are all images has a list of preimages. -/
theorem exists_forall₂_of_forall_exists {β γ : Type} {R : γ → β → Prop} {values : List β}
    (each : ∀ value ∈ values, ∃ source, R source value) :
    ∃ sources, List.Forall₂ R sources values := by
  induction values with
  | nil => exact ⟨[], .nil⟩
  | cons value rest ih =>
      obtain ⟨source, hsource⟩ := each value List.mem_cons_self
      obtain ⟨sources, hsources⟩ := ih fun other here => each other (List.mem_cons_of_mem _ here)
      exact ⟨source :: sources, .cons hsource hsources⟩

/-- The way down to a node from the root of its tree: its lineage from the top, without the root. -/
def descent (f : Forest α) (handle : Handle) : List Handle := (f.lineage handle).dropLast.reverse

namespace Rooted

variable (wf : f.Rooted)
include wf

/-- A path leads from the head to the nodes of the tree proper, and to the one whose way down it
names. -/
theorem find?_eq_some_iff {path : Path} : f.find? nameOf path = some handle ↔
    f.inTree handle = true ∧ List.Forall₂ (f.Names nameOf) path.steps (f.descent handle) := by
  cases hhead : f.head with
  | none => simp [find?, hhead, wf.inTree_eq_false_of_isEmpty hhead]
  | some head =>
      have hroot := wf.parent?_head head hhead
      have hfind : f.find? nameOf path = f.follow? nameOf head path.steps := by
        simp [find?, hhead, get?, wf.contains_head head hhead]
      rw [hfind, wf.follow?_eq_some_iff, wf.inTree_iff hhead, ← wf.getLast?_lineage_eq_iff hroot,
        wf.lineage_of_root hroot, descent]
      constructor
      · rintro ⟨chain, hline, hnames⟩
        rw [hline]
        simpa using hnames
      · rintro ⟨hlast, hnames⟩
        refine ⟨_, ?_, hnames⟩
        rw [List.reverse_reverse]
        exact (List.dropLast_append_getLast? head hlast).symm

/-- In an arena that a machine word can count, every node of the tree proper has a path. -/
theorem exists_find?_eq_some (fits : f.nodes.size ≤ UInt64.size)
    (attached : f.inTree handle = true) (nameOf : α → String) :
    ∃ path, f.find? nameOf path = some handle := by
  have hnamed : ∀ node ∈ f.descent handle, ∃ step, f.Names nameOf step node := by
    intro node here
    refine wf.exists_names fits (wf.contains_of_mem_isLineage (wf.isLineage_lineage handle)
      (contains_of_inTree attached) node ?_)
    exact (List.dropLast_sublist _).subset (List.mem_reverse.1 here)
  obtain ⟨steps, hsteps⟩ := exists_forall₂_of_forall_exists hnamed
  exact ⟨⟨steps⟩, wf.find?_eq_some_iff.2 ⟨attached, hsteps⟩⟩

end Rooted

/-- Paths and the nodes of the tree proper correspond to each other, whatever was done to the
forest. A path leads from the head to a node exactly when its steps name the nodes on the way down;
every node of the tree proper has exactly one path, the head the empty one; and a path may be
followed in two parts. Only that there is a path needs an arena whose places a machine word can
count, because a step passes over siblings by the number in such a word. -/
theorem path_correspondence (reached : f.Reachable) (hhead : f.head = some head)
    (nameOf : α → String) :
    (f.nodes.size ≤ UInt64.size → ∀ handle, f.inTree handle = true →
      ∃! path, f.find? nameOf path = some handle) ∧
    (∀ path handle, f.find? nameOf path = some handle ↔
      f.inTree handle = true ∧ List.Forall₂ (f.Names nameOf) path.steps (f.descent handle)) ∧
    (∀ path, f.find? nameOf path = some head ↔ path.steps = []) ∧
    ∀ start front back, f.get? nameOf start ⟨front ++ back⟩ =
      (f.get? nameOf start ⟨front⟩).bind fun middle => f.get? nameOf middle ⟨back⟩ := by
  have wf := reached.wellFormed
  refine ⟨fun fits handle attached => ?_, fun path handle => wf.find?_eq_some_iff, ?_,
    wf.get?_append nameOf⟩
  · obtain ⟨path, hpath⟩ := wf.exists_find?_eq_some fits attached nameOf
    refine ⟨path, hpath, fun other hother => ?_⟩
    have named := (wf.find?_eq_some_iff.1 hpath).2
    have named' := (wf.find?_eq_some_iff.1 hother).2
    exact congrArg Path.mk (leftUnique_names.forall₂ named' named)
  · intro path
    have hdescent : f.descent head = [] := by
      rw [descent, wf.lineage_of_root (wf.parent?_head head hhead)]
      rfl
    rw [wf.find?_eq_some_iff, hdescent, List.forall₂_nil_right_iff]
    exact and_iff_right (wf.inTree_head hhead)

/-- Two children of one name, the second with a child of its own. -/
def twins : Forest String := ({} : Forest String).applyAll
  [.insert none "root", .insert (some ⟨0, 0⟩) "a", .insert (some ⟨0, 0⟩) "b",
    .insert (some ⟨0, 0⟩) "a", .insert (some ⟨3, 0⟩) "c"]

/-- The child of the second twin has one path, which passes over the first twin. -/
theorem path_correspondence_twins :
    twins.Reachable ∧ twins.head = some ⟨0, 0⟩ ∧ twins.nodes.size ≤ UInt64.size ∧
      twins.inTree ⟨4, 0⟩ = true ∧ (∃! path, twins.find? id path = some ⟨4, 0⟩) ∧
      twins.find? id ⟨[⟨"a", 1⟩, ⟨"c", 0⟩]⟩ = some ⟨4, 0⟩ := by
  have reached : twins.Reachable := Reachable.empty.applyAll _
  have hhead : twins.head = some ⟨0, 0⟩ := by decide +kernel
  have fits : twins.nodes.size ≤ UInt64.size := by decide +kernel
  have attached : twins.inTree ⟨4, 0⟩ = true := by decide +kernel
  refine ⟨reached, hhead, fits, attached, ?_, by decide +kernel⟩
  exact (path_correspondence reached hhead id).1 fits ⟨4, 0⟩ attached

end CommandEngine.Forest
