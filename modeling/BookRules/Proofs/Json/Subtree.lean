import BookRules.Json.Path
import Mathlib.Data.List.Basic

/-!
# The values inside a value

A descent keeps the values that are still to be visited on a stack, the children of the
value visited last on top.  The values to come are at any time those of the subtrees on the
stack, one subtree after the other: what is visited is therefore the subtree of the value
that the descent starts from, a value before those it holds, as far as there is room.

A position says which child to take at every level.  Positions are compared from the front,
and a position comes before those that continue it, so that their order is the order in
which values stand in a document: an outer value before those inside it, a child with all
that is inside it before the next child.  A subtree lists its values in this order, each
position once.
-/

namespace BookRules.Json

mutual

/-- A value and all values inside it, a value before those it holds. -/
def subtree : Json → List Json
  | .array items => .array items :: itemSubtrees items
  | .object members => .object members :: memberSubtrees members
  | leaf => [leaf]

def itemSubtrees : List Json → List Json
  | [] => []
  | item :: rest => subtree item ++ itemSubtrees rest

def memberSubtrees : List (String × Json) → List Json
  | [] => []
  | (_, value) :: rest => subtree value ++ memberSubtrees rest

end

theorem itemSubtrees_eq (items : List Json) : itemSubtrees items = items.flatMap subtree := by
  induction items with
  | nil => rfl
  | cons item rest ih => rw [itemSubtrees, ih, List.flatMap_cons]

theorem memberSubtrees_eq (members : List (String × Json)) :
    memberSubtrees members = (members.map Prod.snd).flatMap subtree := by
  induction members with
  | nil => rfl
  | cons member rest ih =>
      obtain ⟨name, value⟩ := member
      rw [memberSubtrees, ih, List.map_cons, List.flatMap_cons]

theorem subtree_eq (doc : Json) : subtree doc = doc :: doc.children.flatMap subtree := by
  cases doc with
  | array items => rw [subtree, itemSubtrees_eq]; rfl
  | object members => rw [subtree, memberSubtrees_eq]; rfl
  | null => rfl
  | bool b => rfl
  | number n => rfl
  | string s => rfl

theorem mem_subtree_self (doc : Json) : doc ∈ subtree doc := by
  rw [subtree_eq]
  exact List.mem_cons_self

theorem length_le_flatMap {α β : Type} {f : α → List β} {items : List α} {a : α}
    (ha : a ∈ items) : (f a).length ≤ (items.flatMap f).length := by
  rw [List.flatMap_def]
  exact (List.sublist_flatten_of_mem (List.mem_map_of_mem ha)).length_le

/-- Induction from the values inside a value to the value. -/
theorem children_induction {motive : Json → Prop}
    (step : ∀ doc : Json, (∀ child ∈ doc.children, motive child) → motive doc) (doc : Json) :
    motive doc := by
  induction hsize : (subtree doc).length using Nat.strongRecOn generalizing doc with
  | ind size ih =>
      apply step
      intro child hchild
      have hinside : (subtree child).length ≤ (doc.children.flatMap subtree).length :=
        length_le_flatMap hchild
      have hsmaller : (subtree child).length < size := by
        rw [← hsize, subtree_eq doc, List.length_cons]
        omega
      exact ih _ hsmaller child rfl

/-- What is on the stack are the subtrees that are still to be listed. -/
theorem visitInside_eq (room : Nat) (found pending : List Json) :
    visitInside room found pending =
      found.reverse ++ (pending.flatMap subtree).take room := by
  induction room generalizing found pending with
  | zero => simp [visitInside]
  | succ room ih =>
      cases pending with
      | nil => simp [visitInside]
      | cons node pending =>
          have hstack : (node :: pending).flatMap subtree =
              node :: (node.children ++ pending).flatMap subtree := by
            rw [List.flatMap_cons, subtree_eq node, List.flatMap_append, List.cons_append]
          rw [visitInside, ih, hstack, List.take_succ_cons, List.reverse_cons,
            List.append_assoc, List.singleton_append]

theorem descendants_eq (doc : Json) :
    descendants doc = (subtree doc).take Limits.jsonMatches := by
  unfold descendants
  rw [visitInside_eq]
  simp

end BookRules.Json

namespace BookRules.Json

/-! ## Positions -/

abbrev Position :=
  List Nat

/-- The value at a position. -/
def valueAt? : Position → Json → Option Json
  | [], doc => some doc
  | i :: rest, doc => doc.children[i]?.bind (valueAt? rest)

def under (i : Nat) (placed : Position × Json) : Position × Json :=
  (i :: placed.1, placed.2)

mutual

/-- The values of a subtree with their positions. -/
def placed : Json → List (Position × Json)
  | .array items => ([], .array items) :: placedItems 0 items
  | .object members => ([], .object members) :: placedMembers 0 members
  | leaf => [([], leaf)]

def placedItems (i : Nat) : List Json → List (Position × Json)
  | [] => []
  | item :: rest => (placed item).map (under i) ++ placedItems (i + 1) rest

def placedMembers (i : Nat) : List (String × Json) → List (Position × Json)
  | [] => []
  | (_, value) :: rest => (placed value).map (under i) ++ placedMembers (i + 1) rest

end

variable {doc value : Json} {position : Position}

theorem placedItems_eq (i : Nat) (items : List Json) :
    placedItems i items =
      (items.zipIdx i).flatMap fun child => (placed child.1).map (under child.2) := by
  induction items generalizing i with
  | nil => rfl
  | cons item rest ih => rw [placedItems, ih, List.zipIdx_cons, List.flatMap_cons]

theorem placedMembers_eq (i : Nat) (members : List (String × Json)) :
    placedMembers i members =
      ((members.map Prod.snd).zipIdx i).flatMap fun child =>
        (placed child.1).map (under child.2) := by
  induction members generalizing i with
  | nil => rfl
  | cons member rest ih =>
      obtain ⟨name, value⟩ := member
      rw [placedMembers, ih, List.map_cons, List.zipIdx_cons, List.flatMap_cons]

theorem placed_eq (doc : Json) :
    placed doc =
      ([], doc) :: doc.children.zipIdx.flatMap fun child =>
        (placed child.1).map (under child.2) := by
  cases doc with
  | array items => rw [placed, placedItems_eq]; rfl
  | object members => rw [placed, placedMembers_eq]; rfl
  | null => rfl
  | bool b => rfl
  | number n => rfl
  | string s => rfl

theorem map_snd_placed (doc : Json) : (placed doc).map Prod.snd = subtree doc := by
  induction doc using children_induction with
  | step doc ih =>
      have hchildren : doc.children.zipIdx.flatMap
            (fun child => ((placed child.1).map (under child.2)).map Prod.snd) =
          doc.children.zipIdx.flatMap fun child => subtree child.1 := by
        apply List.flatMap_congr
        rintro ⟨child, i⟩ hchild
        rw [List.map_map]
        exact ih child (List.mem_of_getElem? (List.mk_mem_zipIdx_iff_getElem?.1 hchild))
      rw [placed_eq, subtree_eq, List.map_cons, List.map_flatMap, hchildren]
      conv_rhs => rw [← List.zipIdx_map_fst 0 doc.children, List.flatMap_map]

theorem mem_placed_iff : (position, value) ∈ placed doc ↔ valueAt? position doc = some value := by
  induction position generalizing doc with
  | nil =>
      rw [placed_eq]
      simp [under, valueAt?, eq_comm]
  | cons i rest ih =>
      rw [placed_eq]
      simp only [List.mem_cons, Prod.mk.injEq, reduceCtorEq, false_and, false_or, List.mem_flatMap,
        List.mem_map, under, List.cons.injEq, Prod.exists, List.mk_mem_zipIdx_iff_getElem?,
        valueAt?, Option.bind_eq_some_iff]
      constructor
      · rintro ⟨child, j, hchild, position, value', hmem, ⟨rfl, rfl⟩, rfl⟩
        exact ⟨child, hchild, ih.1 hmem⟩
      · rintro ⟨child, hchild, hvalue⟩
        exact ⟨child, i, hchild, rest, value, ih.2 hvalue, ⟨rfl, rfl⟩, rfl⟩

/-- A subtree lists its values in the order in which they stand in the document. -/
theorem pairwise_placed (doc : Json) : (placed doc).Pairwise fun a b => a.1 < b.1 := by
  induction doc using children_induction with
  | step doc ih =>
      rw [placed_eq, List.pairwise_cons, List.pairwise_flatMap]
      refine ⟨?_, ?_, ?_⟩
      · intro a ha
        simp only [List.mem_flatMap, List.mem_map, under] at ha
        obtain ⟨child, -, b, -, rfl⟩ := ha
        exact List.nil_lt_cons _ _
      · rintro ⟨child, i⟩ hchild
        have hinside := ih child (List.mem_of_getElem? (List.mk_mem_zipIdx_iff_getElem?.1 hchild))
        rw [List.pairwise_map]
        exact hinside.imp fun hlt => List.cons_lt_cons_iff.2 (Or.inr ⟨rfl, hlt⟩)
      · have hindices : (doc.children.zipIdx).Pairwise fun a b => a.2 < b.2 := by
          rw [← List.pairwise_map (f := Prod.snd), List.zipIdx_map_snd]
          exact List.pairwise_lt_range'
        refine hindices.imp ?_
        intro a b hlt x hx y hy
        simp only [List.mem_map, under] at hx hy
        obtain ⟨_, -, rfl⟩ := hx
        obtain ⟨_, -, rfl⟩ := hy
        exact List.cons_lt_cons_iff.2 (Or.inl hlt)

end BookRules.Json
