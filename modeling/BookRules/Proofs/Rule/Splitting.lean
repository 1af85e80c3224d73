import BookRules.Proofs.Rule.Cutting

/-!
# Splitting and joining

Splitting a rule and joining fragments undo one another.  The fragments of a rule
are the pieces of its trimmed text without the blanks around them, and none of
them is split again by the token that was found; joined fragments come apart where
they were joined.

A combinator between two operands splits into exactly these operands, and a rule that
is one operand is one fragment.  So whatever is evaluated for the fragments, the rule
with the combinator gives what the combinator makes of the two answers.
-/

namespace BookRules.Rule

variable {dialect : Dialect} {token : List Char}

/-- What pieces come down to: trimmed, in order, without the blank ones, and one empty
fragment when none is left. -/
def fragmentsOf (pieces : List String) : List String :=
  match (pieces.map Text.trimmed).filter (· ≠ "") with
  | [] => [""]
  | fragments => fragments

/-- A fragment as it stands between tokens: trimmed, not empty, and such that it can be
joined. -/
def IsFragment (dialect : Dialect) (name fragment : String) : Prop :=
  Text.trimmed fragment = fragment ∧ fragment ≠ "" ∧
    IsJoinable dialect name.toList fragment.toList

instance (dialect : Dialect) (name fragment : String) :
    Decidable (IsFragment dialect name fragment) :=
  inferInstanceAs (Decidable (_ ∧ _))

theorem split_of_not_holdsToken {names : List String} (hnames : names ⊆ separators) {rule : String}
    (hno : ¬ HoldsToken dialect (names.map String.toList) {} (Text.trim rule.toList)) :
    split dialect names rule = ⟨.none, [Text.trimmed rule]⟩ := by
  have hruns : AreRuns (names.map String.toList) :=
    areRuns_separators.mono (List.map_subset String.toList hnames)
  simp [split, cutPieces_of_not_holdsToken hruns hno, Text.trimmed]

theorem filter_trimmed_ofList (pieces : List (List Char)) :
    ((pieces.map String.ofList).map Text.trimmed).filter (· ≠ "") =
      ((pieces.map Text.trim).filter (fun p => !p.isEmpty)).map String.ofList := by
  have htrim : Text.trimmed ∘ String.ofList = String.ofList ∘ Text.trim := by
    funext p
    simp [Text.trimmed]
  have hkeep : (fun f : String => decide (f ≠ "")) ∘ String.ofList = fun p => !p.isEmpty := by
    funext p
    cases p <;> simp
  rw [List.map_map, htrim, ← List.map_map, List.filter_map, hkeep]

theorem split_of_cutPieces {names : List String} {rule : String} {pieces : List (List Char)}
    (hcut : cutPieces dialect (names.map String.toList) {} [] (Text.trim rule.toList) =
      ⟨pieces, some token⟩) :
    split dialect names rule =
      ⟨if ∀ p ∈ pieces, Text.trim p = [] then .none else .ofToken (String.ofList token),
        fragmentsOf (pieces.map String.ofList)⟩ := by
  unfold split fragmentsOf
  simp only [hcut, filter_trimmed_ofList]
  cases hfragments : (pieces.map Text.trim).filter (fun p => !p.isEmpty) with
  | nil =>
      have hblank : ∀ p ∈ pieces, Text.trim p = [] := by simpa using hfragments
      simp only [List.map_nil]
      rw [if_pos hblank]
  | cons first rest =>
      have hsome : ¬ ∀ p ∈ pieces, Text.trim p = [] := by
        intro hblank
        have hnone : (pieces.map Text.trim).filter (fun p => !p.isEmpty) = [] := by
          simpa using hblank
        rw [hfragments] at hnone
        simp at hnone
      simp only [List.map_cons]
      rw [if_neg hsome]

/-- A rule that holds a token comes apart at one of them. -/
theorem exists_split_of_holdsToken {names : List String} (hnames : names ⊆ separators)
    {rule : String}
    (hholds : HoldsToken dialect (names.map String.toList) {} (Text.trim rule.toList)) :
    ∃ name ∈ names, ∃ pieces : List (List Char), 2 ≤ pieces.length ∧
      name.toList.intercalate pieces = Text.trim rule.toList ∧
      split dialect names rule =
        ⟨if ∀ p ∈ pieces, Text.trim p = [] then .none else .ofToken name,
          fragmentsOf (pieces.map String.ofList)⟩ ∧
      (∀ p ∈ pieces.head?, ¬ HoldsToken dialect (names.map String.toList) {} p) ∧
      ∀ p ∈ pieces, ¬ HoldsToken dialect [name.toList] {} p := by
  have hruns : AreRuns (names.map String.toList) :=
    areRuns_separators.mono (List.map_subset String.toList hnames)
  have hjoin := intercalate_cutPieces dialect (names.map String.toList) {} []
    (Text.trim rule.toList)
  obtain ⟨first, more, hpieces, -, hfirst, hmore⟩ :=
    exists_pieces_cutPieces hruns dialect {} [] (Text.trim rule.toList)
  cases hcut : cutPieces dialect (names.map String.toList) {} [] (Text.trim rule.toList) with
  | mk pieces token =>
      cases token with
      | none =>
          have hnone := (token_cutPieces_eq_none_iff hruns).1 (congrArg Pieces.token hcut)
          exact absurd hholds hnone
      | some token =>
          rw [hcut] at hjoin hpieces hmore
          obtain ⟨htoken, hlong, hjoin⟩ := hjoin
          obtain ⟨name, hname, rfl⟩ := List.mem_map.1 htoken
          obtain rfl : pieces = first :: more := hpieces
          refine ⟨name, hname, first :: more, hlong, hjoin, ?_, ?_, ?_⟩
          · simpa using split_of_cutPieces hcut
          · simpa using hfirst
          · intro p hp
            rcases List.mem_cons.1 hp with rfl | hlater
            · exact fun h => hfirst (h.mono (by simpa using htoken))
            · obtain ⟨found, hfound, hp⟩ := hmore p hlater
              obtain rfl : name.toList = found := Option.some.inj hfound
              exact hp

theorem mem_fragmentsOf {pieces : List String} {fragment : String}
    (h : fragment ∈ fragmentsOf pieces) :
    fragment = "" ∨ ∃ p ∈ pieces, Text.trimmed p = fragment := by
  unfold fragmentsOf at h
  split at h
  next => exact Or.inl (List.mem_singleton.1 h)
  next =>
    obtain ⟨hmem, -⟩ := List.mem_filter.1 h
    exact Or.inr (List.mem_map.1 hmem)

/-- Pieces that are fragments already stay what they are. -/
theorem fragmentsOf_eq_self {pieces : List String} (hne : pieces ≠ [])
    (h : ∀ p ∈ pieces, Text.trimmed p = p ∧ p ≠ "") : fragmentsOf pieces = pieces := by
  have hmap : pieces.map Text.trimmed = pieces := by
    rw [List.map_congr_left fun p hp => (h p hp).1, List.map_id']
  have hkept : pieces.filter (· ≠ "") = pieces :=
    List.filter_eq_self.2 fun p hp => by simpa using (h p hp).2
  unfold fragmentsOf
  rw [hmap, hkept]
  cases pieces with
  | nil => exact absurd rfl hne
  | cons p rest => rfl

theorem split_singleton_of_not_holdsToken {name rule : String} (hname : name ∈ separators)
    (hno : ¬ HoldsToken dialect [name.toList] {} (Text.trim rule.toList)) :
    split dialect [name] rule = ⟨.none, [Text.trimmed rule]⟩ :=
  split_of_not_holdsToken (by simpa using hname) hno

/-- A fragment is not cut again. -/
theorem split_of_mem_fragmentsOf {name : String} (hname : name ∈ separators)
    {pieces : List (List Char)} (hno : ∀ p ∈ pieces, ¬ HoldsToken dialect [name.toList] {} p)
    {fragment : String} (hfragment : fragment ∈ fragmentsOf (pieces.map String.ofList)) :
    split dialect [name] fragment = ⟨.none, [fragment]⟩ := by
  have hruns : AreRuns [name.toList] :=
    areRuns_separators.singleton (List.mem_map_of_mem hname)
  rcases mem_fragmentsOf hfragment with rfl | ⟨p, hp, rfl⟩
  · exact split_singleton_of_not_holdsToken hname (not_holdsToken_nil hruns dialect {})
  · obtain ⟨cs, hcs, rfl⟩ := List.mem_map.1 hp
    have htrim : Text.trim (Text.trimmed (String.ofList cs)).toList = Text.trim cs := by
      simp [Text.trimmed, Text.trim_trim]
    have hfree : ¬ HoldsToken dialect [name.toList] {}
        (Text.trim (Text.trimmed (String.ofList cs)).toList) := by
      rw [htrim]
      exact fun h => hno cs hcs h.of_trim
    rw [split_singleton_of_not_holdsToken hname hfree]
    simp [Text.trimmed, Text.trim_trim]

theorem isInfix_intercalate (token : List Char) {parts : List (List Char)} {part : List Char}
    (hpart : part ∈ parts) : part <:+: token.intercalate parts := by
  induction parts with
  | nil => simp at hpart
  | cons first rest ih =>
      by_cases hrest : rest = []
      · subst hrest
        simp_all
      · rw [List.intercalate_cons_of_ne_nil hrest, List.append_assoc]
        rcases List.mem_cons.1 hpart with rfl | hlater
        · exact (List.prefix_append part _).isInfix
        · rw [← List.append_assoc]
          exact (ih hlater).trans (List.suffix_append _ _).isInfix

/-- A fragment stands in the rule as it is. -/
theorem isInfix_of_mem_split {names : List String} (hnames : names ⊆ separators)
    {rule fragment : String} (h : fragment ∈ (split dialect names rule).fragments) :
    fragment.toList <:+: rule.toList := by
  have htrimmed : ∀ text : String, (Text.trimmed text).toList <:+: text.toList := by
    intro text
    rw [Text.trimmed, String.toList_ofList]
    exact Text.trim_isInfix text.toList
  by_cases hholds : HoldsToken dialect (names.map String.toList) {} (Text.trim rule.toList)
  · obtain ⟨name, -, pieces, -, hjoin, hsplit, -⟩ := exists_split_of_holdsToken hnames hholds
    rw [hsplit] at h
    rcases mem_fragmentsOf h with rfl | ⟨p, hp, rfl⟩
    · exact (List.nil_prefix).isInfix
    · obtain ⟨cs, hcs, rfl⟩ := List.mem_map.1 hp
      have hpiece : cs <:+: Text.trim rule.toList := hjoin ▸ isInfix_intercalate name.toList hcs
      have hfragment := htrimmed (String.ofList cs)
      rw [String.toList_ofList] at hfragment
      exact (hfragment.trans hpiece).trans (Text.trim_isInfix rule.toList)
  · rw [split_of_not_holdsToken hnames hholds] at h
    obtain rfl : fragment = Text.trimmed rule := List.mem_singleton.1 h
    exact htrimmed rule

/-- A fragment is no longer than the rule. -/
theorem length_le_of_mem_split {names : List String} (hnames : names ⊆ separators)
    {rule fragment : String} (h : fragment ∈ (split dialect names rule).fragments) :
    fragment.length ≤ rule.length := by
  rw [← String.length_toList, ← String.length_toList]
  exact (isInfix_of_mem_split hnames h).length_le

/-- Fragments that were joined come apart again. -/
theorem split_intercalate {names : List String} (hnames : names ⊆ separators) {name : String}
    (hname : name ∈ names) {first : String} {rest : List String} (hne : rest ≠ [])
    (hfragments : ∀ f ∈ first :: rest, IsFragment dialect name f)
    (hfirst : ¬ HoldsToken dialect (names.map String.toList) {} first.toList)
    (hrest : ∀ f ∈ rest, ¬ HoldsToken dialect [name.toList] {} f.toList) :
    split dialect names (name.intercalate (first :: rest)) = ⟨.ofToken name, first :: rest⟩ := by
  have hruns : AreRuns (names.map String.toList) :=
    areRuns_separators.mono (List.map_subset String.toList hnames)
  have htrimmed : ∀ f ∈ first :: rest, Text.trim f.toList = f.toList := by
    intro f hf
    simpa [Text.trimmed] using congrArg String.toList (hfragments f hf).1
  have hparts : ∀ p ∈ (first :: rest).map String.toList, Text.trim p = p ∧ p ≠ [] := by
    intro p hp
    obtain ⟨f, hf, rfl⟩ := List.mem_map.1 hp
    exact ⟨htrimmed f hf, by simpa using (hfragments f hf).2.1⟩
  have hbody : Text.trim (name.intercalate (first :: rest)).toList =
      name.toList.intercalate ((first :: rest).map String.toList) := by
    rw [String.toList_intercalate, Text.trim_intercalate name.toList hparts]
  have hcut : cutPieces dialect (names.map String.toList) {} []
      (Text.trim (name.intercalate (first :: rest)).toList) =
        ⟨(first :: rest).map String.toList, some name.toList⟩ := by
    rw [hbody, List.map_cons]
    apply cutPieces_intercalate hruns (List.mem_map_of_mem hname) (by simpa using hne) _ hfirst
    · simpa using hrest
    · intro p hp
      have hmem : p ∈ (first :: rest).map String.toList := by simpa using hp
      obtain ⟨f, hf, rfl⟩ := List.mem_map.1 hmem
      exact (hfragments f hf).2.2
  have hsome : ¬ ∀ p ∈ (first :: rest).map String.toList, Text.trim p = [] := by
    intro hblank
    have hfirst := hblank first.toList (by simp)
    rw [htrimmed first List.mem_cons_self] at hfirst
    exact (hparts first.toList (by simp)).2 hfirst
  have hsame : ((first :: rest).map String.toList).map String.ofList = first :: rest := by
    simp [Function.comp_def]
  rw [split_of_cutPieces hcut, if_neg hsome, hsame, String.ofList_toList,
    fragmentsOf_eq_self (by simp) fun f hf => ⟨(hfragments f hf).1, (hfragments f hf).2.1⟩]

/-- Splitting loses nothing, and it undoes joining. -/
theorem split_join_and_join_split (dialect : Dialect) {names : List String}
    (hnames : names ⊆ separators) :
    (∀ rule : String,
      (¬ HoldsToken dialect (names.map String.toList) {} (Text.trim rule.toList) ∧
        split dialect names rule = ⟨.none, [Text.trimmed rule]⟩) ∨
      (HoldsToken dialect (names.map String.toList) {} (Text.trim rule.toList) ∧
        ∃ name ∈ names, ∃ pieces : List String, 2 ≤ pieces.length ∧
          name.intercalate pieces = Text.trimmed rule ∧
          (split dialect names rule).fragments = fragmentsOf pieces ∧
          (split dialect names rule).kind =
            (if ∀ p ∈ pieces, Text.trimmed p = "" then .none else .ofToken name) ∧
          (∀ p ∈ pieces.head?, ¬ HoldsToken dialect (names.map String.toList) {} p.toList) ∧
          ∀ f ∈ fragmentsOf pieces, split dialect [name] f = ⟨.none, [f]⟩)) ∧
    ∀ name ∈ names, ∀ (first : String) (rest : List String), rest ≠ [] →
      (∀ f ∈ first :: rest, IsFragment dialect name f) →
      ¬ HoldsToken dialect (names.map String.toList) {} first.toList →
      (∀ f ∈ rest, ¬ HoldsToken dialect [name.toList] {} f.toList) →
      split dialect names (name.intercalate (first :: rest)) =
        ⟨.ofToken name, first :: rest⟩ := by
  constructor
  · intro rule
    by_cases hholds : HoldsToken dialect (names.map String.toList) {} (Text.trim rule.toList)
    · obtain ⟨name, hname, pieces, hlong, hjoin, hsplit, hfirst, hno⟩ :=
        exists_split_of_holdsToken hnames hholds
      have hblank : (∀ p ∈ pieces.map String.ofList, Text.trimmed p = "") ↔
          ∀ p ∈ pieces, Text.trim p = [] := by
        simp [Text.trimmed]
      refine Or.inr ⟨hholds, name, hname, pieces.map String.ofList, by simpa using hlong, ?_,
        by rw [hsplit], by simp only [hsplit, hblank], ?_, ?_⟩
      · rw [← String.toList_inj, String.toList_intercalate, List.map_map]
        simpa [Function.comp_def, Text.trimmed] using hjoin
      · simpa [List.head?_map] using hfirst
      · exact fun f hf => split_of_mem_fragmentsOf (hnames hname) hno hf
    · exact Or.inl ⟨hholds, split_of_not_holdsToken hnames hholds⟩
  · intro name hname first rest hne hfragments hfirst hrest
    exact split_intercalate hnames hname hne hfragments hfirst hrest

/-- Quotes, brackets and escapes hide their tokens, a lone quote hides nothing, and a
second kind of token stays where it is. -/
theorem split_join_and_join_split_hidden :
    Combinator.tokens ⊆ separators ∧
    (∀ f ∈ ["a[x&&\"]\"]", "(b||c)\\&& d", "e||f"], IsFragment .rule "&&" f) ∧
    ¬ HoldsToken .rule (Combinator.tokens.map String.toList) {} "a[x&&\"]\"]".toList ∧
    (∀ f ∈ ["(b||c)\\&& d", "e||f"], ¬ HoldsToken .rule ["&&".toList] {} f.toList) ∧
    split .rule Combinator.tokens ("&&".intercalate ["a[x&&\"]\"]", "(b||c)\\&& d", "e||f"]) =
      ⟨.ofToken "&&", ["a[x&&\"]\"]", "(b||c)\\&& d", "e||f"]⟩ := by
  have hnames : Combinator.tokens ⊆ separators := by decide
  have hfragments : ∀ f ∈ ["a[x&&\"]\"]", "(b||c)\\&& d", "e||f"], IsFragment .rule "&&" f := by
    decide +kernel
  have hfirst :
      ¬ HoldsToken .rule (Combinator.tokens.map String.toList) {} "a[x&&\"]\"]".toList := by
    decide +kernel
  have hrest : ∀ f ∈ ["(b||c)\\&& d", "e||f"], ¬ HoldsToken .rule ["&&".toList] {} f.toList := by
    decide +kernel
  exact ⟨hnames, hfragments, hfirst, hrest,
    (split_join_and_join_split .rule hnames).2 "&&" (by decide) _ _ (by simp) hfragments hfirst
      hrest⟩

end BookRules.Rule

namespace BookRules.Rule

/-! ## Two operands -/

/-- A text that can stand behind a combinator. -/
structure IsLastOperand (dialect : Dialect) (text : String) : Prop where
  nonblank : Text.trim text.toList ≠ []
  free : ¬ HoldsToken dialect (Combinator.tokens.map String.toList) {} text.toList

instance (dialect : Dialect) (text : String) : Decidable (IsLastOperand dialect text) :=
  decidable_of_iff
    (Text.trim text.toList ≠ [] ∧
      ¬ HoldsToken dialect (Combinator.tokens.map String.toList) {} text.toList)
    ⟨fun ⟨h, h'⟩ => ⟨h, h'⟩, fun ⟨h, h'⟩ => ⟨h, h'⟩⟩

/-- A text that can stand on either side of a combinator. -/
structure IsOperand (dialect : Dialect) (name text : String) : Prop where
  nonblank : Text.trim text.toList ≠ []
  closes : ClosesItself dialect {} text.toList
  free : ¬ HoldsToken dialect (Combinator.tokens.map String.toList) {} text.toList
  ending : ∀ c ∈ text.toList.getLast?, name.toList.head? ≠ some c

instance (dialect : Dialect) (name text : String) : Decidable (IsOperand dialect name text) :=
  have : Decidable (∀ c ∈ text.toList.getLast?, name.toList.head? ≠ some c) :=
    Option.decidableForallMem _
  decidable_of_iff
    (Text.trim text.toList ≠ [] ∧ ClosesItself dialect {} text.toList ∧
      ¬ HoldsToken dialect (Combinator.tokens.map String.toList) {} text.toList ∧
      ∀ c ∈ text.toList.getLast?, name.toList.head? ≠ some c)
    ⟨fun ⟨h, h', h'', h'''⟩ => ⟨h, h', h'', h'''⟩,
      fun ⟨h, h', h'', h'''⟩ => ⟨h, h', h'', h'''⟩⟩

variable {dialect : Dialect} {name a b : String}

theorem combinatorTokens_subset_separators : Combinator.tokens ⊆ separators := by
  simp [separators]

theorem IsOperand.isLastOperand (h : IsOperand dialect name a) : IsLastOperand dialect a :=
  ⟨h.nonblank, h.free⟩

/-- An operand alone is one fragment. -/
theorem IsLastOperand.split_eq (h : IsLastOperand dialect a) :
    split dialect Combinator.tokens a = ⟨.none, [Text.trimmed a]⟩ :=
  split_of_not_holdsToken combinatorTokens_subset_separators fun hholds => h.free hholds.of_trim

/-- Two operands with a combinator between them are two fragments. -/
theorem split_operands (hname : name ∈ Combinator.tokens) (ha : IsOperand dialect name a)
    (hb : IsLastOperand dialect b) :
    split dialect Combinator.tokens (a ++ name ++ b) =
      ⟨.ofToken name, [Text.trimmed a, Text.trimmed b]⟩ := by
  have hruns : AreRuns (Combinator.tokens.map String.toList) :=
    areRuns_separators.mono (List.map_subset String.toList combinatorTokens_subset_separators)
  have htoken : name.toList ∈ Combinator.tokens.map String.toList := List.mem_map_of_mem hname
  have hbody : Text.trim (a ++ name ++ b).toList =
      Text.trimStart a.toList ++ (name.toList ++ Text.trimEnd b.toList) := by
    rw [String.toList_append, String.toList_append,
      Text.trim_append_append ha.nonblank hb.nonblank, List.append_assoc]
  have hlast : ∀ c ∈ (Text.trimStart a.toList).getLast?, name.toList.head? ≠ some c := by
    intro c hc
    obtain ⟨blank, -, hblank⟩ := Text.exists_blank_append_trimStart a.toList
    apply ha.ending c
    rw [← hblank]
    exact List.mem_getLast?_append_of_mem_getLast? hc
  have hfree : ¬ HoldsToken dialect [name.toList] {} (Text.trimEnd b.toList) :=
    fun hholds => hb.free (hholds.of_trimEnd.mono (by simpa using htoken))
  have hcut : cutPieces dialect (Combinator.tokens.map String.toList) {} []
      (Text.trim (a ++ name ++ b).toList) =
        ⟨[Text.trimStart a.toList, Text.trimEnd b.toList], some name.toList⟩ := by
    rw [hbody, cutPieces_append hruns htoken ha.closes.trimStart
        (fun hholds => ha.free hholds.of_trimStart) hlast,
      cutPieces_of_not_holdsToken (hruns.singleton htoken) hfree]
    rfl
  have hsome : ¬ ∀ p ∈ [Text.trimStart a.toList, Text.trimEnd b.toList], Text.trim p = [] := by
    intro hblank
    have hnil := hblank (Text.trimStart a.toList) List.mem_cons_self
    rw [Text.trim_trimStart] at hnil
    exact ha.nonblank hnil
  rw [split_of_cutPieces hcut, if_neg hsome, String.ofList_toList]
  simp [fragmentsOf, Text.trimmed, Text.trim_trimStart, Text.trim_trimEnd, ha.nonblank,
    hb.nonblank]

/-- Blanks around a rule do not count. -/
theorem split_trimmed (dialect : Dialect) (names : List String) (rule : String) :
    split dialect names (Text.trimmed rule) = split dialect names rule := by
  simp [split, Text.trimmed, Text.trim_trim]

namespace Combinator

variable {ι α : Type}

/-- The items of two lists in turn, as long as the first one lasts. -/
def alternate : List α → List α → List α
  | [], _ => []
  | x :: xs, [] => x :: xs
  | x :: xs, y :: ys => x :: y :: alternate xs ys

theorem alternate_nil (xs : List α) : alternate xs [] = xs := by
  cases xs <;> rfl

theorem alternate_cons (x : α) (xs ys : List α) :
    alternate (x :: xs) ys = x :: (ys.head?.toList ++ alternate xs ys.tail) := by
  cases ys with
  | nil => simp [alternate, alternate_nil]
  | cons y ys => rfl

theorem interleave_pair (xs ys : List α) : interleave [xs, ys] = alternate xs ys := by
  induction xs generalizing ys with
  | nil => rfl
  | cons x xs ih =>
      have hrest : rounds xs.length [xs, ys.tail] = alternate xs ys.tail := ih ys.tail
      rw [alternate_cons, ← hrest]
      cases ys <;> rfl

/-- What a combinator makes of the answers of two operands. -/
def join (kind : Combinator) (xs ys : List α) : List α :=
  match kind with
  | .or => if xs.isEmpty then ys else xs
  | .combine => alternate xs ys
  | .none | .and | .chain => xs ++ ys

theorem rounds_singleton (xs : List α) : rounds xs.length [xs] = xs := by
  induction xs with
  | nil => rfl
  | cons x xs ih => simp [rounds, ih]

/-- The answer to a single fragment stays what it is. -/
theorem merge_singleton (kind : Combinator) (eval : ι → List α) (x : ι) :
    merge kind eval [x] = eval x := by
  cases kind with
  | or =>
      cases hx : eval x <;> simp [merge, mergeCounting, firstNonempty, hx]
  | combine => exact rounds_singleton (eval x)
  | none => simp [merge, mergeCounting]
  | and => simp [merge, mergeCounting]
  | chain => simp [merge, mergeCounting]

theorem merge_pair (kind : Combinator) (eval : ι → List α) (x y : ι) :
    merge kind eval [x, y] = join kind (eval x) (eval y) := by
  cases kind with
  | or =>
      cases hx : eval x with
      | nil => cases hy : eval y <;> simp [merge, mergeCounting, firstNonempty, join, hx, hy]
      | cons item rest => simp [merge, mergeCounting, firstNonempty, join, hx]
  | combine => exact interleave_pair (eval x) (eval y)
  | none => simp [merge, mergeCounting, join]
  | and => simp [merge, mergeCounting, join]
  | chain => simp [merge, mergeCounting, join]

/-- Merging looks at the answers only. -/
theorem merge_congr (kind : Combinator) {eval other : ι → List α} {xs : List ι}
    (h : ∀ x ∈ xs, eval x = other x) : merge kind eval xs = merge kind other xs := by
  have hmap : xs.map eval = xs.map other := List.map_congr_left h
  have hflat : xs.flatMap eval = xs.flatMap other := by
    rw [List.flatMap_def, List.flatMap_def, hmap]
  have hfirst : firstNonempty eval xs = firstNonempty other xs := by
    clear hmap hflat
    induction xs with
    | nil => rfl
    | cons x xs ih =>
        have hrest := ih fun y hy => h y (List.mem_cons_of_mem x hy)
        simp only [firstNonempty, h x List.mem_cons_self, hrest]
  cases kind <;> simp [merge, mergeCounting, hmap, hflat, hfirst]

theorem mem_rounds {n : Nat} {columns : List (List α)} {item : α} (h : item ∈ rounds n columns) :
    ∃ column ∈ columns, item ∈ column := by
  induction n generalizing columns with
  | zero => simp [rounds] at h
  | succ n ih =>
      rcases List.mem_append.1 h with hround | hlater
      · obtain ⟨column, hcolumn, hhead⟩ := List.mem_filterMap.1 hround
        exact ⟨column, hcolumn, List.mem_of_mem_head? hhead⟩
      · obtain ⟨rest, hrest, hitem⟩ := ih hlater
        obtain ⟨column, hcolumn, rfl⟩ := List.mem_map.1 hrest
        exact ⟨column, hcolumn, List.mem_of_mem_tail hitem⟩

/-- Merging makes up no items. -/
theorem mem_merge {kind : Combinator} {eval : ι → List α} {xs : List ι} {item : α}
    (h : item ∈ merge kind eval xs) : ∃ x ∈ xs, item ∈ eval x := by
  have hfirst : item ∈ (firstNonempty eval xs).1 → ∃ x ∈ xs, item ∈ eval x := by
    clear h
    induction xs with
    | nil => simp [firstNonempty]
    | cons x xs ih =>
        intro hitem
        rw [firstNonempty] at hitem
        split_ifs at hitem
        · obtain ⟨y, hy, hmem⟩ := ih hitem
          exact ⟨y, List.mem_cons_of_mem x hy, hmem⟩
        · exact ⟨x, List.mem_cons_self, hitem⟩
  cases kind with
  | or => exact hfirst h
  | combine => simpa using mem_rounds h
  | none => exact List.mem_flatMap.1 h
  | and => exact List.mem_flatMap.1 h
  | chain => exact List.mem_flatMap.1 h

theorem merge_nothing (kind : Combinator) (xs : List ι) :
    kind.merge (fun _ => ([] : List α)) xs = [] := by
  rw [List.eq_nil_iff_forall_not_mem]
  intro item hitem
  obtain ⟨_, -, hmem⟩ := mem_merge hitem
  simp at hmem

end Combinator

end BookRules.Rule
