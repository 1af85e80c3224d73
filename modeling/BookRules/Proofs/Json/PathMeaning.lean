import BookRules.Proofs.Json.Subtree
import Mathlib.Data.List.Basic
import Mathlib.Data.List.Flatten

/-!
# What a path means

A step means a list of values for every value, and a path means its steps applied one after
the other to all values found so far; `..X` means `X` at every value of the subtree.  The
meaning knows no limits.

Evaluation cuts off what goes beyond a limit, in a descent and after every step, and what it
leaves is always a sublist.  A condition asks for some match with a property, so with fewer
matches it can only fail more often, and a filter still leaves a sublist.  Where no limit is
exceeded nothing is cut off.
-/

namespace BookRules.Json

mutual

/-- What a step matches from a value. -/
def Step.meaning : Step → Json → List Json
  | .child names, node =>
    match node with
    | .object members => names.filterMap (lookup? · members)
    | _ => []
  | .wildcard, node => node.children
  | .indices filter, node =>
    match node with
    | .array items => filter.apply items
    | _ => []
  | .descend step, node => (subtree node).flatMap step.meaning
  | .filter condition, node => node.children.filter condition.isMet

/-- What the steps match from values, step by step. -/
def meaning : List Step → List Json → List Json
  | [], nodes => nodes
  | step :: rest, nodes => meaning rest (nodes.flatMap step.meaning)

/-- Whether a value meets the condition of a filter. -/
def Condition.isMet : Condition → Json → Bool
  | .present path, item => (meaning path [item]).any fun v => !v.isNull
  | .compare path op constant, item => (meaning path [item]).any fun v => op.holds v constant

end

mutual

/-- Every subtree that the step descends into is within the limit, those of the paths in its
conditions too. -/
def Step.Fits : Step → Json → Prop
  | .child _, _ => True
  | .wildcard, _ => True
  | .indices _, _ => True
  | .descend step, node =>
    (subtree node).length ≤ Limits.jsonMatches ∧ ∀ inner ∈ subtree node, step.Fits inner
  | .filter condition, node => ∀ item ∈ node.children, condition.Fits item

/-- Every subtree that a step descends into is within the limit, and so is what every step
matches. -/
def FitsAll : List Step → List Json → Prop
  | [], _ => True
  | step :: rest, nodes =>
    (∀ node ∈ nodes, step.Fits node) ∧
      (nodes.flatMap step.meaning).length ≤ Limits.jsonMatches ∧
      FitsAll rest (nodes.flatMap step.meaning)

def Condition.Fits : Condition → Json → Prop
  | .present path, item => FitsAll path [item]
  | .compare path _ _, item => FitsAll path [item]

end

/-! ## Limits cut off -/

theorem gatherUpTo_eq_take (room : Nat) (found : Json → List Json) (nodes : List Json) :
    gatherUpTo room found nodes = (nodes.flatMap found).take room := by
  induction nodes generalizing room with
  | nil => simp [gatherUpTo]
  | cons node rest ih =>
      rw [List.flatMap_cons]
      by_cases hfull : room ≤ (found node).length
      · simp only [gatherUpTo, if_pos hfull]
        rw [List.take_append_of_le_length hfull]
      · have hshort : (found node).length ≤ room := by omega
        simp only [gatherUpTo, if_neg hfull]
        rw [ih, List.take_append, List.take_of_length_le hshort]

theorem apply_child (names : List String) (node : Json) :
    (Step.child names).apply node = (Step.child names).meaning node := by
  cases node <;> rfl

theorem apply_indices (filter : Select.IndexFilter) (node : Json) :
    (Step.indices filter).apply node = (Step.indices filter).meaning node := by
  cases node <;> rfl

theorem apply_descend (step : Step) (node : Json) :
    (Step.descend step).apply node =
      ((subtree node).take Limits.jsonMatches).flatMap fun inner =>
        (step.apply inner).take Limits.jsonMatches := by
  rw [Step.apply, descendants_eq]

theorem applySteps_cons (step : Step) (rest : List Step) (nodes : List Json) :
    applySteps (step :: rest) nodes =
      applySteps rest ((nodes.flatMap step.apply).take Limits.jsonMatches) := by
  rw [applySteps, gatherUpTo_eq_take]

theorem applySteps_append (front back : List Step) (nodes : List Json) :
    applySteps (front ++ back) nodes = applySteps back (applySteps front nodes) := by
  induction front generalizing nodes with
  | nil => rfl
  | cons step rest ih => rw [List.cons_append, applySteps_cons, applySteps_cons, ih]

/-- After its last step a path has no more values than the limit. -/
theorem length_applySteps_le (front : List Step) (step : Step) (nodes : List Json) :
    (applySteps (front ++ [step]) nodes).length ≤ Limits.jsonMatches := by
  rw [applySteps_append, applySteps_cons]
  exact List.length_take_le ..

/-! ## What is left is a sublist -/

theorem any_of_sublist {α : Type} {kept all : List α} {p : α → Bool} (h : kept.Sublist all)
    (hany : kept.any p = true) : all.any p = true := by
  obtain ⟨a, ha, hp⟩ := List.any_eq_true.1 hany
  exact List.any_eq_true.2 ⟨a, h.subset ha, hp⟩

mutual

theorem Step.apply_sublist : ∀ (step : Step) (node : Json),
    (step.apply node).Sublist (step.meaning node)
  | .child names, node => by
      rw [apply_child]
  | .wildcard, node => by
      rw [Step.apply, Step.meaning]
  | .indices filter, node => by
      rw [apply_indices]
  | .descend step, node => by
      rw [apply_descend, Step.meaning]
      have hinner : ∀ inner ∈ (subtree node).take Limits.jsonMatches,
          ((step.apply inner).take Limits.jsonMatches).Sublist (step.meaning inner) :=
        fun inner _ => (List.take_sublist _ _).trans (step.apply_sublist inner)
      exact (List.Sublist.flatMap_right _ hinner).trans ((List.take_sublist _ _).flatMap _)
  | .filter condition, node => by
      rw [Step.apply, Step.meaning]
      exact List.monotone_filter_right _ condition.isMet_of_holds

theorem applySteps_sublist : ∀ (path : List Step) {nodes all : List Json},
    nodes.Sublist all → (applySteps path nodes).Sublist (meaning path all)
  | [], nodes, all, h => by
      rw [applySteps, meaning]
      exact h
  | step :: rest, nodes, all, h => by
      rw [applySteps_cons, meaning]
      have hstep : (nodes.flatMap step.apply).Sublist (all.flatMap step.meaning) :=
        (List.Sublist.flatMap_right nodes fun node _ => step.apply_sublist node).trans
          (h.flatMap step.meaning)
      exact applySteps_sublist rest ((List.take_sublist _ _).trans hstep)

theorem Condition.isMet_of_holds : ∀ (condition : Condition) (item : Json),
    condition.holds item = true → condition.isMet item = true
  | .present path, item, h => by
      rw [Condition.holds] at h
      rw [Condition.isMet]
      exact any_of_sublist (applySteps_sublist path (List.Sublist.refl [item])) h
  | .compare path op constant, item, h => by
      rw [Condition.holds] at h
      rw [Condition.isMet]
      exact any_of_sublist (applySteps_sublist path (List.Sublist.refl [item])) h

end

/-! ## Within the limits nothing is cut off -/

mutual

theorem Step.apply_eq_meaning : ∀ (step : Step) (node : Json), step.Fits node →
    (step.meaning node).length ≤ Limits.jsonMatches → step.apply node = step.meaning node
  | .child names, node, _, _ => apply_child names node
  | .wildcard, node, _, _ => by
      rw [Step.apply, Step.meaning]
  | .indices filter, node, _, _ => apply_indices filter node
  | .descend step, node, hfits, hroom => by
      rw [Step.Fits] at hfits
      rw [Step.meaning] at hroom
      rw [apply_descend, Step.meaning, List.take_of_length_le hfits.1]
      apply List.flatMap_congr
      intro inner hinner
      have hfew : (step.meaning inner).length ≤ Limits.jsonMatches :=
        Nat.le_trans (length_le_flatMap hinner) hroom
      rw [step.apply_eq_meaning inner (hfits.2 inner hinner) hfew, List.take_of_length_le hfew]
  | .filter condition, node, hfits, _ => by
      rw [Step.Fits] at hfits
      rw [Step.apply, Step.meaning]
      exact List.filter_congr fun item hitem => condition.holds_eq_isMet item (hfits item hitem)

theorem applySteps_eq_meaning : ∀ (path : List Step) (nodes : List Json),
    FitsAll path nodes → applySteps path nodes = meaning path nodes
  | [], nodes, _ => by
      rw [applySteps, meaning]
  | step :: rest, nodes, hfits => by
      rw [FitsAll] at hfits
      obtain ⟨hnodes, hroom, hrest⟩ := hfits
      have hstep : nodes.flatMap step.apply = nodes.flatMap step.meaning := by
        apply List.flatMap_congr
        intro node hnode
        exact step.apply_eq_meaning node (hnodes node hnode)
          (Nat.le_trans (length_le_flatMap hnode) hroom)
      rw [applySteps_cons, meaning, hstep, List.take_of_length_le hroom]
      exact applySteps_eq_meaning rest _ hrest

theorem Condition.holds_eq_isMet : ∀ (condition : Condition) (item : Json),
    condition.Fits item → condition.holds item = condition.isMet item
  | .present path, item, hfits => by
      rw [Condition.Fits] at hfits
      rw [Condition.holds, Condition.isMet, applySteps_eq_meaning path [item] hfits]
  | .compare path op constant, item, hfits => by
      rw [Condition.Fits] at hfits
      rw [Condition.holds, Condition.isMet, applySteps_eq_meaning path [item] hfits]

end

/-- A path matches what it means as long as no limit is exceeded, and else a sublist of it;
no step leaves more values than the limit. -/
theorem query_keeps_meaning :
    (∀ (path : Path) (doc : Json), FitsAll path [doc] → query path doc = meaning path [doc]) ∧
    (∀ (path : Path) (doc : Json), (query path doc).Sublist (meaning path [doc])) ∧
    ∀ (front : Path) (step : Step) (back : Path) (doc : Json),
      query (front ++ step :: back) doc = applySteps back (query (front ++ [step]) doc) ∧
      (query (front ++ [step]) doc).length ≤ Limits.jsonMatches := by
  refine ⟨?_, ?_, ?_⟩
  · intro path doc hfits
    exact applySteps_eq_meaning path [doc] hfits
  · intro path doc
    exact applySteps_sublist path (List.Sublist.refl [doc])
  · intro front step back doc
    constructor
    · unfold query
      rw [← applySteps_append, List.append_assoc, List.singleton_append]
    · exact length_applySteps_le front step [doc]

end BookRules.Json
