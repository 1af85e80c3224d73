import BookRules.Json.Parser
import BookRules.Proofs.Json.Subtree
import Mathlib.Data.List.Nodup
import Mathlib.Tactic.SplitIfs

/-!
# Names in an object

In a document that was read every object has each name once: a name that is written again
replaces the value of the first one.
-/

namespace BookRules.Json

/-- Every object in the document has each name once. -/
def Distinct (doc : Json) : Prop :=
  ∀ members, .object members ∈ subtree doc → (members.map Prod.fst).Nodup

variable {doc : Json} {members done : List (String × Json)} {name : String} {value : Json}

theorem distinct_iff :
    doc.Distinct ↔ (∀ members, doc = .object members → (members.map Prod.fst).Nodup) ∧
      ∀ child ∈ doc.children, child.Distinct := by
  unfold Distinct
  rw [subtree_eq]
  constructor
  · intro h
    constructor
    · rintro members rfl
      exact h members List.mem_cons_self
    · intro child hchild members hmem
      exact h members (List.mem_cons_of_mem _ (List.mem_flatMap.2 ⟨child, hchild, hmem⟩))
  · rintro ⟨hself, hchildren⟩ members hmem
    rcases List.mem_cons.1 hmem with heq | hinside
    · exact hself members heq.symm
    · obtain ⟨child, hchild, hmem'⟩ := List.mem_flatMap.1 hinside
      exact hchildren child hchild members hmem'

theorem distinct_array {items : List Json} :
    (array items).Distinct ↔ ∀ item ∈ items, item.Distinct := by
  rw [distinct_iff]
  simp [children]

theorem distinct_object : (object members).Distinct ↔
    (members.map Prod.fst).Nodup ∧ ∀ member ∈ members, member.2.Distinct := by
  rw [distinct_iff, children, List.forall_mem_map]
  simp

theorem distinct_null : null.Distinct := by
  simp [Distinct, subtree]

theorem distinct_bool (b : Bool) : (bool b).Distinct := by
  simp [Distinct, subtree]

theorem distinct_number (n : Number) : (number n).Distinct := by
  simp [Distinct, subtree]

theorem distinct_string (s : String) : (string s).Distinct := by
  simp [Distinct, subtree]

theorem distinct_of_mem_subtree {inner : Json} (hdoc : doc.Distinct)
    (hinner : inner ∈ subtree doc) : inner.Distinct := by
  induction doc using children_induction with
  | step doc ih =>
      rw [subtree_eq, List.mem_cons, List.mem_flatMap] at hinner
      rcases hinner with rfl | ⟨child, hchild, hinner⟩
      · exact hdoc
      · exact ih child hchild ((distinct_iff.1 hdoc).2 child hchild) hinner

theorem map_snd_filter_eq_lookup? {members : List (String × Json)}
    (hnames : (members.map Prod.fst).Nodup) :
    (members.filter fun entry => entry.1 = name).map Prod.snd = (lookup? name members).toList := by
  induction members with
  | nil => rfl
  | cons entry rest ih =>
      obtain ⟨first, value⟩ := entry
      rw [List.map_cons, List.nodup_cons] at hnames
      by_cases hfirst : first = name
      · have hnone : rest.filter (fun entry => entry.1 = name) = [] := by
          rw [List.filter_eq_nil_iff]
          intro entry hentry heq
          apply hnames.1
          rw [hfirst]
          exact List.mem_map.2 ⟨entry, hentry, of_decide_eq_true heq⟩
        simp [lookup?, hfirst, hnone]
      · simp [lookup?, hfirst, ih hnames.2]

theorem map_fst_setMember (name : String) (value : Json) (members : List (String × Json)) :
    (setMember name value members).map Prod.fst =
      if name ∈ members.map Prod.fst then members.map Prod.fst
      else members.map Prod.fst ++ [name] := by
  induction members with
  | nil => rfl
  | cons member rest ih =>
      obtain ⟨first, v⟩ := member
      by_cases hname : first = name
      · simp [setMember, hname]
      · have hother : name ≠ first := fun h => hname h.symm
        simp only [setMember, if_neg hname, List.map_cons, ih, List.mem_cons, hother, false_or]
        split_ifs <;> rfl

theorem nodup_setMember (h : (members.map Prod.fst).Nodup) :
    ((setMember name value members).map Prod.fst).Nodup := by
  rw [map_fst_setMember]
  split_ifs with hmem
  · exact h
  · exact h.append (List.nodup_singleton name) (by simpa using hmem)

theorem mem_setMember {member : String × Json} (h : member ∈ setMember name value members) :
    member ∈ members ∨ member.2 = value := by
  induction members with
  | nil =>
      rw [setMember, List.mem_singleton] at h
      exact Or.inr (by rw [h])
  | cons first rest ih =>
      obtain ⟨k, v⟩ := first
      rw [setMember] at h
      split_ifs at h
      · rcases List.mem_cons.1 h with rfl | hrest
        · exact Or.inr rfl
        · exact Or.inl (List.mem_cons_of_mem _ hrest)
      · rcases List.mem_cons.1 h with rfl | hrest
        · exact Or.inl List.mem_cons_self
        · exact (ih hrest).imp_left (List.mem_cons_of_mem _)

theorem mergedItems_eq (items : List Json) : mergedItems items = items.map merged := by
  induction items with
  | nil => rfl
  | cons item rest ih => rw [mergedItems, ih, List.map_cons]

theorem nodup_mergedMembers (hdone : (done.map Prod.fst).Nodup) :
    ((mergedMembers done members).map Prod.fst).Nodup := by
  induction members generalizing done with
  | nil => exact hdone
  | cons member rest ih =>
      obtain ⟨name, value⟩ := member
      rw [mergedMembers]
      exact ih (nodup_setMember hdone)

theorem distinct_of_mem_mergedMembers
    (hdone : ∀ member ∈ done, member.2.Distinct)
    (hmembers : ∀ member ∈ members, (merged member.2).Distinct) :
    ∀ member ∈ mergedMembers done members, member.2.Distinct := by
  induction members generalizing done with
  | nil => exact hdone
  | cons first rest ih =>
      obtain ⟨name, value⟩ := first
      rw [mergedMembers]
      apply ih
      · intro member hmember
        rcases mem_setMember hmember with hmem | heq
        · exact hdone member hmem
        · rw [heq]
          exact hmembers (name, value) List.mem_cons_self
      · intro member hmember
        exact hmembers member (List.mem_cons_of_mem _ hmember)

theorem distinct_merged (doc : Json) : (merged doc).Distinct := by
  induction doc using children_induction with
  | step doc ih =>
      rw [distinct_iff]
      cases doc with
      | array items =>
          rw [merged, mergedItems_eq]
          refine ⟨by simp, fun child hchild => ?_⟩
          obtain ⟨item, hitem, rfl⟩ := List.mem_map.1 hchild
          exact ih item hitem
      | object members =>
          rw [merged]
          refine ⟨fun members' heq => ?_, fun child hchild => ?_⟩
          · obtain rfl := Json.object.inj heq
            exact nodup_mergedMembers List.nodup_nil
          · obtain ⟨member, hmember, rfl⟩ := List.mem_map.1 hchild
            refine distinct_of_mem_mergedMembers (by simp) (fun written hwritten => ?_) member
              hmember
            exact ih written.2 (List.mem_map_of_mem hwritten)
      | null => simp [merged, children]
      | bool b => simp [merged, children]
      | number n => simp [merged, children]
      | string s => simp [merged, children]

/-- A document that was read has each name once in every object. -/
theorem distinct_of_parse? {text : List Char} (h : parse? text = some doc) : doc.Distinct := by
  obtain ⟨written, -, rfl⟩ := Option.map_eq_some_iff.1 h
  exact distinct_merged written

end BookRules.Json
