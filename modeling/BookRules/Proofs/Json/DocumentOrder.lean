import BookRules.Proofs.Json.DistinctNames
import BookRules.Proofs.Json.PathGrammar
import BookRules.Proofs.Json.PathMeaning
import Mathlib.Data.List.Infix

/-!
# The members that a descent finds

A descent to a name comes to every object of the document and takes its member of that
name: it finds all members of that name, each once, and they come in the order of the
objects that hold them.

This is the order in which the members stand in the document as long as no object holds
further members of the name in the values in front of its own.  Where one does, its own
member comes before them: the descent takes it when it comes to the object, and the others
only once it goes on to the values inside.
-/

namespace BookRules.Json

/-- A member in a document: where the object is that holds it, which of its members it is,
and its value. -/
structure Member where
  holder : Position
  index : Nat
  value : Json

namespace Member

def position (member : Member) : Position :=
  member.holder ++ [member.index]

/-- The document has the member, under the name. -/
def StandsIn (doc : Json) (name : String) (member : Member) : Prop :=
  ∃ members, valueAt? member.holder doc = some (.object members) ∧
    members[member.index]? = some (name, member.value)

end Member

/-- The members of a name in the value at a position. -/
def membersIn (name : String) : Position × Json → List Member
  | (holder, .object members) =>
    (members.zipIdx.filter fun entry => entry.1.1 = name).map fun entry =>
      ⟨holder, entry.2, entry.1.2⟩
  | _ => []

/-- The members of a name in a document, object by object. -/
def membersNamed (name : String) (doc : Json) : List Member :=
  (placed doc).flatMap (membersIn name)

variable {doc node : Json} {name : String} {holder : Position} {member other : Member}

theorem mem_membersIn_iff : member ∈ membersIn name (holder, node) ↔
    member.holder = holder ∧
      ∃ members, node = .object members ∧ members[member.index]? = some (name, member.value) := by
  obtain ⟨holder', index, value⟩ := member
  cases node with
  | object members =>
      simp [membersIn, List.mk_mem_zipIdx_iff_getElem?, eq_comm, and_comm, and_left_comm]
  | null => simp [membersIn]
  | bool b => simp [membersIn]
  | number n => simp [membersIn]
  | string s => simp [membersIn]
  | array items => simp [membersIn]

/-- All members of the name are listed, and nothing else. -/
theorem mem_membersNamed_iff : member ∈ membersNamed name doc ↔ member.StandsIn doc name := by
  unfold membersNamed Member.StandsIn
  simp only [List.mem_flatMap, Prod.exists, mem_membersIn_iff, mem_placed_iff]
  constructor
  · rintro ⟨_, _, hvalue, rfl, members, rfl, hmember⟩
    exact ⟨members, hvalue, hmember⟩
  · rintro ⟨members, hvalue, hmember⟩
    exact ⟨_, _, hvalue, rfl, members, rfl, hmember⟩

/-! ## One member of each object -/

theorem map_value_membersIn (hnode : node.Distinct) (holder : Position) (name : String) :
    (membersIn name (holder, node)).map Member.value = (Step.child [name]).meaning node := by
  cases node with
  | object members =>
      have hnames : (members.map Prod.fst).Nodup := hnode members (mem_subtree_self _)
      have hvalues : (members.zipIdx.filter fun entry => entry.1.1 = name).map (·.1.2) =
          (members.filter fun entry => entry.1 = name).map Prod.snd := by
        conv_rhs => rw [← List.zipIdx_map_fst 0 members, List.filter_map, List.map_map]
        rfl
      rw [membersIn, List.map_map, Step.meaning, List.filterMap_cons, List.filterMap_nil]
      calc
        _ = (members.zipIdx.filter fun entry => entry.1.1 = name).map (·.1.2) := rfl
        _ = (lookup? name members).toList := hvalues.trans (map_snd_filter_eq_lookup? hnames)
        _ = _ := by cases lookup? name members <;> rfl
  | null => rfl
  | bool b => rfl
  | number n => rfl
  | string s => rfl
  | array items => rfl

theorem length_meaning_child_le_one (name : String) (node : Json) :
    ((Step.child [name]).meaning node).length ≤ 1 := by
  cases node with
  | object members =>
      rw [Step.meaning]
      exact List.length_filterMap_le _ _
  | null => simp [Step.meaning]
  | bool b => simp [Step.meaning]
  | number n => simp [Step.meaning]
  | string s => simp [Step.meaning]
  | array items => simp [Step.meaning]

theorem distinct_of_mem_placed (hdoc : doc.Distinct) (hnode : (holder, node) ∈ placed doc) :
    node.Distinct := by
  apply distinct_of_mem_subtree hdoc
  rw [← map_snd_placed]
  exact List.mem_map_of_mem hnode

/-- An object has at most one member of a name. -/
theorem length_membersIn_le_one (hdoc : doc.Distinct) (hnode : (holder, node) ∈ placed doc)
    (name : String) : (membersIn name (holder, node)).length ≤ 1 := by
  rw [← List.length_map Member.value, map_value_membersIn (distinct_of_mem_placed hdoc hnode)]
  exact length_meaning_child_le_one name node

/-! ## The order of the members -/

theorem pairwise_of_length_le_one {α : Type} {R : α → α → Prop} {items : List α}
    (h : items.length ≤ 1) : items.Pairwise R := by
  match items, h with
  | [], _ => exact List.Pairwise.nil
  | [a], _ => exact List.pairwise_singleton R a

/-- The members come in the order of the objects that hold them. -/
theorem pairwise_holder_membersNamed (hdoc : doc.Distinct) (name : String) :
    (membersNamed name doc).Pairwise fun a b => a.holder < b.holder := by
  unfold membersNamed
  rw [List.pairwise_flatMap]
  constructor
  · rintro ⟨holder, node⟩ hnode
    exact pairwise_of_length_le_one (length_membersIn_le_one hdoc hnode name)
  · refine (pairwise_placed doc).imp ?_
    rintro ⟨holder, node⟩ ⟨holder', node'⟩ hlt a ha b hb
    rw [(mem_membersIn_iff.1 ha).1, (mem_membersIn_iff.1 hb).1]
    exact hlt

theorem nodup_position_membersNamed (hdoc : doc.Distinct) (name : String) :
    ((membersNamed name doc).map Member.position).Nodup := by
  rw [List.Nodup, List.pairwise_map]
  refine (pairwise_holder_membersNamed hdoc name).imp ?_
  intro a b hlt heq
  have hholder : a.holder = b.holder := (List.append_inj' heq rfl).1
  rw [hholder] at hlt
  exact List.lt_irrefl b.holder hlt

theorem lt_append_cons (front : Position) (i : Nat) (rest : Position) :
    front < front ++ i :: rest := by
  conv_lhs => rw [← List.append_nil front]
  exact List.append_left_lt (List.nil_lt_cons i rest)

theorem append_singleton_lt_iff {a b : Position} (hlt : a < b) (index index' : Nat) :
    a ++ [index] < b ++ [index'] ↔ ∀ i rest, b = a ++ i :: rest → index ≤ i := by
  induction a generalizing b with
  | nil =>
      cases b with
      | nil => exact absurd hlt (List.lt_irrefl [])
      | cons i rest =>
          have hbehind : ([] : Position) < rest ++ [index'] := by
            cases rest <;> exact List.nil_lt_cons _ _
          rw [List.nil_append, List.cons_append, List.cons_lt_cons_iff]
          simp only [List.nil_append, List.cons.injEq, hbehind, and_true]
          constructor
          · rintro hle _ _ ⟨rfl, -⟩
            omega
          · intro hle
            have := hle i rest ⟨rfl, rfl⟩
            omega
  | cons x a ih =>
      cases b with
      | nil => exact absurd hlt (List.not_lt_nil _)
      | cons y b =>
          rw [List.cons_append, List.cons_append, List.cons_lt_cons_iff]
          rcases List.cons_lt_cons_iff.1 hlt with hxy | ⟨rfl, hrest⟩
          · have hne : y ≠ x := by omega
            simp [hxy, hne]
          · simp [ih hrest]

/-- Where a list is in order by `R`, what holds of any two in turn holds of any two that `R`
relates. -/
theorem rel_of_pairwise {α : Type} {R S : α → α → Prop} {items : List α} {a b : α}
    (hasymm : ∀ a b, R a b → ¬ R b a) (hR : items.Pairwise R) (hS : items.Pairwise S)
    (ha : a ∈ items) (hb : b ∈ items) (hab : R a b) : S a b := by
  induction items with
  | nil => exact absurd ha List.not_mem_nil
  | cons first rest ih =>
      rw [List.pairwise_cons] at hR hS
      rcases List.mem_cons.1 ha with rfl | harest <;> rcases List.mem_cons.1 hb with rfl | hbrest
      · exact absurd hab (hasymm b b hab)
      · exact hS.1 b hbrest
      · exact absurd (hR.1 a harest) (hasymm a b hab)
      · exact ih hR.2 hS.2 harest hbrest

/-- The members come as they stand in the document exactly if no object holds members of the
name inside the values in front of its own one. -/
theorem pairwise_position_membersNamed_iff (hdoc : doc.Distinct) (name : String) :
    (membersNamed name doc).Pairwise (fun a b => a.position < b.position) ↔
      ∀ member other : Member, member.StandsIn doc name → other.StandsIn doc name →
        ∀ i rest, other.holder = member.holder ++ i :: rest → member.index ≤ i := by
  have hholders := pairwise_holder_membersNamed hdoc name
  constructor
  · intro hpositions member other hmember hother i rest hinside
    have hlt : member.holder < other.holder := by
      rw [hinside]
      exact lt_append_cons member.holder i rest
    have hposition : member.position < other.position :=
      rel_of_pairwise (R := fun a b : Member => a.holder < b.holder)
        (fun _ _ => List.lt_asymm) hholders hpositions
        (mem_membersNamed_iff.2 hmember) (mem_membersNamed_iff.2 hother) hlt
    exact (append_singleton_lt_iff hlt member.index other.index).1 hposition i rest hinside
  · intro hinside
    refine hholders.imp_of_mem ?_
    intro a b ha hb hlt
    exact (append_singleton_lt_iff hlt a.index b.index).2
      (hinside a b (mem_membersNamed_iff.1 ha) (mem_membersNamed_iff.1 hb))

/-! ## The descent -/

/-- The members come in the order in which the descent visits their objects. -/
theorem map_value_membersNamed (hdoc : doc.Distinct) (name : String) :
    (membersNamed name doc).map Member.value =
      (subtree doc).flatMap (Step.child [name]).meaning := by
  rw [membersNamed, List.map_flatMap, ← map_snd_placed, List.flatMap_map]
  apply List.flatMap_congr
  rintro ⟨holder, node⟩ hnode
  exact map_value_membersIn (distinct_of_mem_placed hdoc hnode) holder name

theorem length_flatMap_le {α β : Type} {f : α → List β} (hone : ∀ a, (f a).length ≤ 1)
    (items : List α) : (items.flatMap f).length ≤ items.length := by
  induction items with
  | nil => exact Nat.le_refl 0
  | cons a rest ih =>
      have := hone a
      rw [List.flatMap_cons, List.length_append, List.length_cons]
      omega

/-- The descent finds the members of as many values as it visits. -/
theorem query_descend_child (name : String) (doc : Json) :
    query [.descend (.child [name])] doc =
      ((subtree doc).take Limits.jsonMatches).flatMap (Step.child [name]).meaning := by
  have hone : ∀ node, ((Step.child [name]).meaning node).length ≤ 1 :=
    length_meaning_child_le_one name
  have hroom : 1 ≤ Limits.jsonMatches := by decide
  have hstep : (Step.descend (.child [name])).apply doc =
      ((subtree doc).take Limits.jsonMatches).flatMap (Step.child [name]).meaning := by
    rw [apply_descend]
    apply List.flatMap_congr
    intro inner _
    rw [apply_child, List.take_of_length_le (Nat.le_trans (hone inner) hroom)]
  have hfew : (((subtree doc).take Limits.jsonMatches).flatMap
      (Step.child [name]).meaning).length ≤ Limits.jsonMatches :=
    Nat.le_trans (length_flatMap_le hone _) (List.length_take_le _ _)
  rw [query, applySteps_cons, applySteps, List.flatMap_singleton, hstep,
    List.take_of_length_le hfew]

/-! ## The path of a descent -/

/-- Two dots and a name are read as a descent to the members of that name. -/
theorem parse_descend {name : String} (hname : IsDotName name.toList) :
    Path.parse ("$.." ++ name) = .ok [.descend (.child [name])] := by
  have hspells : SpellsPath ('.' :: '.' :: name.toList ++ []) [.descend (.child [name])] :=
    .cons (.descent (.name hname)) .nil
  exact hspells.parse_of_root (.inl rfl) (by simp)

/-! ## Main result -/

/-- A descent to a name finds all members of that name, each once, object by object; that is
the order in which they stand in the document if no object holds further members of the name
in front of its own, and only then. -/
theorem descent_finds_members_by_object {text : List Char} (hread : parse? text = some doc)
    (name : String) :
    (IsDotName name.toList → Path.parse ("$.." ++ name) = .ok [.descend (.child [name])]) ∧
      query [.descend (.child [name])] doc <+: (membersNamed name doc).map Member.value ∧
      ((subtree doc).length ≤ Limits.jsonMatches →
        query [.descend (.child [name])] doc = (membersNamed name doc).map Member.value) ∧
      (∀ member, member ∈ membersNamed name doc ↔ member.StandsIn doc name) ∧
      ((membersNamed name doc).map Member.position).Nodup ∧
      (membersNamed name doc).Pairwise (fun a b => a.holder < b.holder) ∧
      ((membersNamed name doc).Pairwise (fun a b => a.position < b.position) ↔
        ∀ member other : Member, member.StandsIn doc name → other.StandsIn doc name →
          ∀ i rest, other.holder = member.holder ++ i :: rest → member.index ≤ i) := by
  have hdoc : doc.Distinct := distinct_of_parse? hread
  refine ⟨parse_descend, ?_, ?_, fun _ => mem_membersNamed_iff,
    nodup_position_membersNamed hdoc name, pairwise_holder_membersNamed hdoc name,
    pairwise_position_membersNamed_iff hdoc name⟩
  · rw [query_descend_child, map_value_membersNamed hdoc]
    exact List.IsPrefix.flatMap (List.take_prefix _ _) _
  · intro hsmall
    rw [query_descend_child, map_value_membersNamed hdoc, List.take_of_length_le hsmall]

/-- A document whose root has a member in front of the other `k` that holds a `k` itself. -/
def memberBehind : Json :=
  .object [("a", .object [("k", .number (.whole 1))]), ("k", .number (.whole 2))]

theorem parse_memberBehind :
    parse? "\x7b\"a\":\x7b\"k\":1\x7d,\"k\":2\x7d".toList = some memberBehind := by
  cbv

theorem descent_finds_members_by_object_behind :
    parse? "\x7b\"a\":\x7b\"k\":1\x7d,\"k\":2\x7d".toList = some memberBehind ∧
      query [.descend (.child ["k"])] memberBehind = [.number (.whole 2), .number (.whole 1)] := by
  have hfound := descent_finds_members_by_object parse_memberBehind "k"
  exact ⟨parse_memberBehind, hfound.2.2.1 (by decide)⟩

/-- The values are those of all members of the name, each once, in the order in which the
members stand in the document. -/
def InDocumentOrder (doc : Json) (name : String) (values : List Json) : Prop :=
  ∃ members : List Member, members.map Member.value = values ∧
    (∀ member, member ∈ members ↔ member.StandsIn doc name) ∧
    members.Pairwise fun a b => a.position < b.position

/-- The member of the root comes before the one inside the value in front of it. -/
theorem not_inDocumentOrder_of_member_behind :
    parse? "\x7b\"a\":\x7b\"k\":1\x7d,\"k\":2\x7d".toList = some memberBehind ∧
      ¬ InDocumentOrder memberBehind "k" (query [.descend (.child ["k"])] memberBehind) := by
  refine ⟨parse_memberBehind, ?_⟩
  rintro ⟨members, hvalues, hmembers, hpositions⟩
  have hfound : query [.descend (.child ["k"])] memberBehind =
      [.number (.whole 2), .number (.whole 1)] := by
    rw [query_descend_child]
    rfl
  have hstanding : ∀ member ∈ members, member = ⟨[], 1, .number (.whole 2)⟩ ∨
      member = ⟨[0], 0, .number (.whole 1)⟩ := by
    intro member hmember
    have hnamed := mem_membersNamed_iff.2 ((hmembers member).1 hmember)
    have hall : membersNamed "k" memberBehind =
        [⟨[], 1, .number (.whole 2)⟩, ⟨[0], 0, .number (.whole 1)⟩] := rfl
    simpa [hall] using hnamed
  rw [hfound] at hvalues
  match members, hvalues with
  | [], hvalues => simp at hvalues
  | [_], hvalues => simp at hvalues
  | _ :: _ :: _ :: _, hvalues => simp at hvalues
  | [first, second], hvalues =>
    obtain rfl | rfl := hstanding first (by simp)
    · obtain rfl | rfl := hstanding second (by simp)
      · simp at hvalues
      · have hlt : ([1] : Position) < [0, 0] := by simpa [Member.position] using hpositions
        exact absurd hlt (by decide)
    · simp at hvalues

end BookRules.Json
