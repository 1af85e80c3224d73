import BookRules.Proofs.Json.DistinctNames
import BookRules.Proofs.Json.PathGrammar
import BookRules.Proofs.Json.PathMeaning

/-!
# Names in quotes

A name in quotes between brackets addresses the member of that name, whatever else it holds:
dots, brackets and blanks mean nothing between quotes.  Only a comma is not hidden.  The text
between the brackets is taken apart at every comma before the quotes are looked at, so a name
with commas stands for the names between them, none of which is the name itself.  Behind a dot
a name may hold commas.
-/

namespace BookRules.Json

open BookRules.Rule (isQuote)

variable {k name : String} {members : List (String × Json)} {path : Path}
  {cs piece : List Char} {pieces : List (List Char)}

/-! ## Members of an object -/

def valuesNamed (name : String) (members : List (String × Json)) : List Json :=
  (members.filter fun member => member.1 = name).map Prod.snd

/-- The path matches the value of the member of a name and nothing else. -/
def Addresses (path : Path) (members : List (String × Json)) (name : String) : Prop :=
  (∀ value, (name, value) ∈ members → query path (.object members) = [value]) ∧
    (name ∉ members.map Prod.fst → query path (.object members) = [])

theorem query_child (hnames : (members.map Prod.fst).Nodup) (names : List String) :
    query [.child names] (.object members) =
      (names.flatMap (valuesNamed · members)).take Limits.jsonMatches := by
  have hvalues : names.filterMap (lookup? · members) = names.flatMap (valuesNamed · members) := by
    rw [List.filterMap_eq_flatMap_toList]
    exact List.flatMap_congr fun name _ => (map_snd_filter_eq_lookup? hnames).symm
  rw [query, applySteps_cons, applySteps, List.flatMap_singleton, apply_child, Step.meaning,
    hvalues]

theorem addresses_child (hnames : (members.map Prod.fst).Nodup) (name : String) :
    Addresses [.child [name]] members name := by
  have hvalues : valuesNamed name members = (lookup? name members).toList :=
    map_snd_filter_eq_lookup? hnames
  have hquery : query [.child [name]] (.object members) = (lookup? name members).toList := by
    rw [query_child hnames, List.flatMap_singleton, hvalues]
    cases lookup? name members <;> rfl
  constructor
  · intro value hmem
    have hvalue : value ∈ (lookup? name members).toList := by
      rw [← hvalues]
      exact List.mem_map.2 ⟨(name, value), List.mem_filter.2 ⟨hmem, by simp⟩, rfl⟩
    rw [hquery, Option.mem_toList.1 hvalue, Option.toList_some]
  · intro hname
    have hnone : members.filter (fun member => member.1 = name) = [] := by
      rw [List.filter_eq_nil_iff]
      intro member hmember heq
      exact hname (of_decide_eq_true heq ▸ List.mem_map_of_mem hmember)
    rw [hquery, ← hvalues, valuesNamed, hnone, List.map_nil]

/-! ## Commas -/

/-- The names behind the first comma of a quoted text.  Blanks next to commas are taken off. -/
def laterNames : List (List Char) → List String
  | [] => []
  | [piece] => [String.ofList (Text.trimStart piece)]
  | piece :: next :: rest => String.ofList (Text.trim piece) :: laterNames (next :: rest)

/-- The names that a text in quotes is taken apart into. -/
def namesAtCommas (cs : List Char) : List String :=
  match cs.splitOn ',' with
  | [] => []
  | [piece] => [String.ofList piece]
  | piece :: next :: rest => String.ofList (Text.trimEnd piece) :: laterNames (next :: rest)

theorem quotedNames_of_not_mem (h : ',' ∉ cs) :
    quotedNames cs = [String.ofList (withoutQuotes (Text.trim cs))] := by
  rw [quotedNames_eq, List.splitOn_eq_singleton h, List.map_singleton]

theorem quotedNames_append (front back : List Char) :
    quotedNames (front ++ ',' :: back) = quotedNames front ++ quotedNames back := by
  rw [quotedNames, List.splitOnP_append_cons front back rfl, List.map_append]
  rfl

/-- The last name takes the closing quote along. -/
theorem quotedNames_closing
    (hpieces : ∀ piece ∈ pieces, ',' ∉ piece ∧ ∀ c ∈ piece, isQuote c = false)
    (hne : pieces ≠ []) : quotedNames ([','].intercalate pieces ++ ['\'']) = laterNames pieces := by
  induction pieces with
  | nil => exact absurd rfl hne
  | cons piece rest ih =>
      rw [List.forall_mem_cons] at hpieces
      obtain ⟨⟨hcomma, hpiece⟩, hrest⟩ := hpieces
      cases rest with
      | nil =>
          have htrim : Text.trim (piece ++ ['\'']) = Text.trimStart piece ++ ['\''] :=
            Text.trim_append (by decide) (by simp) piece
          have hname : withoutQuotes (Text.trimStart piece ++ ['\'']) = Text.trimStart piece :=
            withoutQuotes_append [] ['\''] (by simp) (by simp [isQuote])
              fun c hc => hpiece c ((Text.trimStart_isSuffix piece).mem hc)
          rw [List.intercalate_singleton, quotedNames_of_not_mem (by simpa using hcomma), htrim,
            hname, laterNames]
      | cons next rest =>
          have hname : withoutQuotes (Text.trim piece) = Text.trim piece := by
            simpa using withoutQuotes_append [] [] (by simp) (by simp)
              fun c hc => hpiece c ((Text.trim_isInfix piece).mem hc)
          rw [List.intercalate_cons_cons, List.append_assoc, List.append_assoc,
            List.singleton_append, quotedNames_append, ih hrest (by simp),
            quotedNames_of_not_mem hcomma, hname, laterNames, List.singleton_append]

theorem quotedNames_quoted (h : ∀ c ∈ cs, isQuote c = false) :
    quotedNames ('\'' :: cs ++ ['\'']) = namesAtCommas cs := by
  have hwhole : [','].intercalate (cs.splitOn ',') = cs := List.intercalate_splitOn ','
  have hpieces : ∀ piece ∈ cs.splitOn ',', ',' ∉ piece ∧ ∀ c ∈ piece, isQuote c = false :=
    fun piece hpiece => ⟨Text.not_mem_of_mem_splitOn hpiece, fun c hc =>
      h c (Text.mem_of_mem_splitOn hpiece hc)⟩
  have hne : cs.splitOn ',' ≠ [] := List.splitOn_ne_nil ',' cs
  unfold namesAtCommas
  generalize cs.splitOn ',' = pieces at hwhole hpieces hne
  subst hwhole
  match pieces, hpieces with
  | [], _ => exact absurd rfl hne
  | [piece], hpieces =>
      obtain ⟨hcomma, hpiece⟩ := hpieces piece List.mem_cons_self
      have hname : withoutQuotes ('\'' :: piece ++ ['\'']) = piece :=
        withoutQuotes_append ['\''] ['\''] (by simp [isQuote]) (by simp [isQuote]) hpiece
      rw [List.intercalate_singleton, quotedNames_of_not_mem (by simpa using hcomma),
        Text.trim_cons_concat (by decide) (by decide), hname]
  | piece :: next :: rest, hpieces =>
      rw [List.forall_mem_cons] at hpieces
      obtain ⟨⟨hcomma, hpiece⟩, hrest⟩ := hpieces
      have hname : withoutQuotes ('\'' :: Text.trimEnd piece) = Text.trimEnd piece := by
        simpa using withoutQuotes_append ['\''] [] (by simp [isQuote])
          (by simp) fun c hc => hpiece c ((Text.trimEnd_isPrefix piece).mem hc)
      rw [List.intercalate_cons_cons, ← List.cons_append, ← List.cons_append, List.append_assoc,
        List.append_assoc, List.singleton_append, quotedNames_append,
        quotedNames_closing hrest (by simp), quotedNames_of_not_mem (by simpa using hcomma),
        Text.trim_cons (by decide), hname, List.singleton_append]

theorem comma_not_mem_laterNames (h : ∀ piece ∈ pieces, ',' ∉ piece)
    (hname : name ∈ laterNames pieces) : ',' ∉ name.toList := by
  induction pieces using laterNames.induct with
  | case1 => simp [laterNames] at hname
  | case2 piece =>
      obtain rfl : name = _ := by simpa [laterNames] using hname
      rw [String.toList_ofList]
      exact fun hcomma => h piece List.mem_cons_self ((Text.trimStart_isSuffix piece).mem hcomma)
  | case3 piece next rest ih =>
      rw [List.forall_mem_cons] at h
      rw [laterNames, List.mem_cons] at hname
      rcases hname with rfl | hname
      · rw [String.toList_ofList]
        exact fun hcomma => h.1 ((Text.trim_isInfix piece).mem hcomma)
      · exact ih h.2 hname

theorem comma_not_mem_namesAtCommas (hname : name ∈ namesAtCommas cs) : ',' ∉ name.toList := by
  have hpieces : ∀ piece ∈ cs.splitOn ',', ',' ∉ piece := fun _ => Text.not_mem_of_mem_splitOn
  unfold namesAtCommas at hname
  generalize cs.splitOn ',' = pieces at hname hpieces
  match pieces, hname, hpieces with
  | [], hname, _ => simp at hname
  | [piece], hname, hpieces =>
      obtain rfl : name = _ := by simpa using hname
      rw [String.toList_ofList]
      exact hpieces piece List.mem_cons_self
  | piece :: next :: rest, hname, hpieces =>
      rw [List.forall_mem_cons] at hpieces
      rcases List.mem_cons.1 hname with rfl | hname
      · rw [String.toList_ofList]
        exact fun hcomma => hpieces.1 ((Text.trimEnd_isPrefix piece).mem hcomma)
      · exact comma_not_mem_laterNames hpieces.2 hname

theorem namesAtCommas_of_not_mem (h : ',' ∉ cs) : namesAtCommas cs = [String.ofList cs] := by
  rw [namesAtCommas, List.splitOn_eq_singleton h]

/-! ## Paths of one name -/

theorem parse_quoted (hk : IsQuotable k.toList) :
    Path.parse ("$['" ++ k ++ "']") = .ok [.child (namesAtCommas k.toList)] := by
  have htext : ("$['" ++ k ++ "']").toList =
      '$' :: '[' :: (('\'' :: k.toList ++ ['\'']) ++ [']']) := by
    simp
  refine parse_bracket (hk.staysInside rfl) (fun fuel body _ => ?_) htext
  rw [Text.trim_cons_concat (by decide) (by decide), List.cons_append, stepInside_quote rfl,
    ← List.cons_append, quotedNames_quoted hk.not_isQuote]

theorem spellsPath_dotted (hk : IsDotName k.toList) :
    SpellsPath ('.' :: k.toList) [.child [k]] := by
  simpa using SpellsPath.cons (.dotted (.name hk)) .nil

theorem parse_dotted (hk : IsDotName k.toList) : Path.parse ("$." ++ k) = .ok [.child [k]] :=
  (spellsPath_dotted hk).parse_of_root (.inl rfl) (by simp)

/-- A name in quotes without a comma addresses its member, as the name behind a dot does.  A
name with a comma stands for the names between its commas and not for itself. -/
theorem quoted_name_addresses_member (hk : IsQuotable k.toList)
    (hnames : (members.map Prod.fst).Nodup) :
    (',' ∉ k.toList →
      ∃ path, Path.parse ("$['" ++ k ++ "']") = .ok path ∧ Addresses path members k) ∧
    (',' ∈ k.toList →
      Path.parse ("$['" ++ k ++ "']") = .ok [.child (namesAtCommas k.toList)] ∧
      k ∉ namesAtCommas k.toList ∧
      query [.child (namesAtCommas k.toList)] (.object members) =
        ((namesAtCommas k.toList).flatMap (valuesNamed · members)).take Limits.jsonMatches) ∧
    (IsDotName k.toList →
      ∃ path, Path.parse ("$." ++ k) = .ok path ∧ Addresses path members k) := by
  refine ⟨fun hcomma => ?_, fun hcomma => ⟨parse_quoted hk, ?_, query_child hnames _⟩,
    fun hdot => ?_⟩
  · refine ⟨[.child [k]], ?_, addresses_child hnames k⟩
    rw [parse_quoted hk, namesAtCommas_of_not_mem hcomma, String.ofList_toList]
  · exact fun hmem => comma_not_mem_namesAtCommas hmem hcomma
  · exact ⟨[.child [k]], parse_dotted hdot, addresses_child hnames k⟩

/-- A member with a comma in its name is not found between quotes, but another one. -/
theorem quoted_name_addresses_member_comma :
    let members := [("a,b", .bool true), ("b", .null)]
    (IsQuotable "a,b".toList ∧ (members.map Prod.fst).Nodup) ∧
      Path.parse "$['a,b']" = .ok [.child ["a", "b"]] ∧
      query [.child ["a", "b"]] (.object members) = [.null] ∧
      ∃ path, Path.parse "$.a,b" = .ok path ∧ Addresses path members "a,b" := by
  intro members
  have hk : IsQuotable "a,b".toList := ⟨by decide, by decide, by decide⟩
  have hdot : IsDotName "a,b".toList := ⟨by decide, by decide, by decide, by decide, by decide⟩
  have hnames : (members.map Prod.fst).Nodup := by decide
  obtain ⟨-, hcomma, hdotted⟩ := quoted_name_addresses_member hk hnames
  obtain ⟨hparse, -, hquery⟩ := hcomma (by decide)
  exact ⟨⟨hk, hnames⟩, hparse, hquery, hdotted hdot⟩

theorem not_quoted_name_addresses :
    ¬ ∀ (k : String) (members : List (String × Json)), IsQuotable k.toList →
      (members.map Prod.fst).Nodup →
      ∃ path, Path.parse ("$['" ++ k ++ "']") = .ok path ∧ Addresses path members k := by
  intro hall
  have hk : IsQuotable "a,b".toList := ⟨by decide, by decide, by decide⟩
  obtain ⟨path, hparse, hfound, -⟩ := hall "a,b" [("a,b", .bool true)] hk (by decide)
  have hpath : path = [.child ["a", "b"]] := by
    rw [parse_quoted hk] at hparse
    exact (Except.ok.inj hparse).symm
  have hnone : query [.child ["a", "b"]] (.object [("a,b", .bool true)]) = [] := rfl
  have hquery := hfound (.bool true) List.mem_cons_self
  rw [hpath, hnone] at hquery
  exact List.cons_ne_nil _ _ hquery.symm

end BookRules.Json
