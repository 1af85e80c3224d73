import BookRules.Proofs.Bindings
import BookRules.Proofs.Json.Derivations
import BookRules.Proofs.Json.Printing
import BookRules.Proofs.Rule.BareTexts

/-!
# Bindings as they are written

Bindings are written as `@put:` and the text of a JSON object from names to rules.  They are
read up to the first closing brace, so they are read back where no name and no rule holds one.
Where one does, the object is cut inside a string: what is in front of the cut is no JSON text
and binds nothing, and what is behind it is left in the stage.
-/

namespace BookRules.Json

variable {c : Char} {s : String}

theorem escapeChar_of_isBare (h : isBare c = true) : escapeChar c = [c] := by
  simp only [isBare, Bool.not_eq_true', Bool.or_eq_false_iff, decide_eq_false_iff_not] at h
  obtain ⟨⟨hlow, hquote⟩, hslash⟩ := h
  have hcontrol : ∀ d : Char, d.toNat < 0x20 → (c == d) = false := by
    intro d hd
    rw [beq_eq_false_iff_ne]
    rintro rfl
    exact hlow hd
  simp [escapeChar, hquote, hslash, hlow, hcontrol '\x08' (by decide), hcontrol '\x0c' (by decide),
    hcontrol '\n' (by decide), hcontrol '\r' (by decide), hcontrol '\t' (by decide)]

/-- Nothing is escaped with a closing brace. -/
theorem brace_mem_escapeChar : '\x7d' ∈ escapeChar c ↔ c = '\x7d' := by
  have hcontrol : ∀ n < 0x20, '\x7d' ∉ escapeChar (Char.ofNat n) := by decide
  constructor
  · intro h
    cases hbare : isBare c with
    | true =>
        rw [escapeChar_of_isBare hbare] at h
        exact (List.mem_singleton.1 h).symm
    | false =>
        have hescaped : c.toNat < 0x20 ∨ c = '"' ∨ c = '\\' := by
          simp only [isBare, Bool.not_eq_false', Bool.or_eq_true, decide_eq_true_eq,
            beq_iff_eq] at hbare
          exact or_assoc.1 hbare
        rcases hescaped with hlow | rfl | rfl
        · have hnone := hcontrol c.toNat hlow
          rw [Char.ofNat_toNat] at hnone
          exact absurd h hnone
        · exact absurd h (by decide)
        · exact absurd h (by decide)
  · rintro rfl
    decide

theorem brace_mem_quote : '\x7d' ∈ quote s ↔ '\x7d' ∈ s.toList := by
  simp [quote, brace_mem_escapeChar]

end BookRules.Json

namespace BookRules.Rule

open Json (quote memberTexts)
open Unicode (InAnyCase)

/-- The object from the names to their rules. -/
def objectOf (pairs : List (String × String)) : Json :=
  .object (pairs.map fun (name, rule) => (name, .string rule))

/-- Bindings as they are written. -/
def directive (pairs : List (String × String)) : List Char :=
  "@put:".toList ++ (objectOf pairs).text

/-- No name and no rule holds a closing brace. -/
def Unbraced (pairs : List (String × String)) : Prop :=
  ∀ pair ∈ pairs, '\x7d' ∉ pair.1.toList ∧ '\x7d' ∉ pair.2.toList

instance : DecidablePred Unbraced :=
  fun pairs => List.decidableBAll
    (fun pair : String × String => '\x7d' ∉ pair.1.toList ∧ '\x7d' ∉ pair.2.toList) pairs

variable {pairs : List (String × String)} {bindings : Bindings} {cs after object rest t : List Char}

theorem brace_not_mem_memberTexts : '\x7d' ∉ memberTexts
    (pairs.map fun (name, rule) => (name, .string rule)) ↔ Unbraced pairs := by
  induction pairs with
  | nil => simp [memberTexts, Unbraced]
  | cons pair rest ih =>
      obtain ⟨name, rule⟩ := pair
      cases rest with
      | nil => simp [memberTexts, Unbraced, Json.text, Json.brace_mem_quote]
      | cons other more =>
          change '\x7d' ∉ quote name ++ ':' :: (quote rule ++ ',' :: memberTexts _) ↔ _
          unfold Unbraced at ih ⊢
          rw [List.forall_mem_cons, ← ih]
          simp [Json.brace_mem_quote, and_assoc]

theorem text_objectOf (pairs : List (String × String)) : (objectOf pairs).text =
    '\x7b' :: (memberTexts (pairs.map fun (name, rule) => (name, .string rule)) ++ ['\x7d']) :=
  rfl

theorem parse?_text_objectOf (h : (pairs.map Prod.fst).Nodup) :
    Json.parse? (objectOf pairs).text = some (objectOf pairs) := by
  have hprintable : Json.Printable Json.maxDepth (objectOf pairs) := by
    refine @Json.Printable.object 126 _ fun member hmember => ?_
    obtain ⟨pair, -, rfl⟩ := List.mem_map.1 hmember
    exact .string _
  have hdistinct : (objectOf pairs).Distinct := by
    rw [objectOf, Json.distinct_object]
    constructor
    · simpa [Function.comp_def] using h
    · intro member hmember
      obtain ⟨pair, -, rfl⟩ := List.mem_map.1 hmember
      exact Json.distinct_string _
  exact Json.parse?_text hprintable hdistinct

theorem putBindings_objectOf (h : (pairs.map Prod.fst).Nodup) :
    Stage.putBindings (objectOf pairs).text = pairs := by
  rw [Stage.putBindings, parse?_text_objectOf h]
  simp [objectOf, Function.comp_def, Stage.ruleText]

namespace Stage

/-! ## Reading one after the other -/

theorem putsFrom_skip (skip : Nat) (cs : List Char) :
    putsFrom skip cs = putsFrom 0 (cs.drop skip) := by
  induction cs generalizing skip with
  | nil => cases skip <;> simp [putsFrom]
  | cons c rest ih =>
      cases skip with
      | zero => rfl
      | succ skip => simpa [putsFrom] using ih skip

theorem splitPuts_of_put? (h : put? cs = some (object, after)) :
    splitPuts cs = (Bindings.ofPairs (putBindings object ++ (putsFrom 0 after).flatMap putBindings),
      (splitPuts after).2) := by
  obtain ⟨c, rest, rfl, hsuffix⟩ := takesOff_binds _ _ _ (put?_eq_some_iff.1 h)
  have hobjects : putsFrom 0 (c :: rest) = object :: putsFrom 0 after := by
    rw [putsFrom, h]
    dsimp only
    rw [putsFrom_skip, Text.drop_eq_of_isSuffix hsuffix]
  have htext : (splitPuts (c :: rest)).2 = (splitPuts after).2 := by
    unfold splitPuts Text.replaceSpans
    rw [Text.replaceSpansFrom, h]
    dsimp only [Option.map_some]
    rw [Text.replaceSpansFrom_skip, Text.drop_eq_of_isSuffix hsuffix, List.nil_append]
  rw [← htext, ← List.flatMap_cons, ← hobjects]
  rfl

/-- What is dropped binds nothing. -/
theorem splitPuts_of_dropped (h : put? cs = some (object, after))
    (hobject : putBindings object = []) : splitPuts cs = splitPuts after := by
  rw [splitPuts_of_put? h, hobject]
  rfl

theorem parse_congr (h : splitPuts cs = splitPuts after) (content : Content) :
    parse content cs = parse content after := by
  simp [parse, h]

theorem parse_of_splitPuts (h : splitPuts cs = (bindings, after))
    (hafter : splitPuts after = ([], after)) (content : Content) :
    parse content cs = { parse content after with bindings := bindings } := by
  simp [parse, h, hafter]

end Stage

/-! ## Reading back -/

theorem put?_append {body : List Char} (hbody : body ≠ []) (hclosed : '\x7d' ∉ body)
    (after : List Char) :
    Stage.put? ("@put:".toList ++ '\x7b' :: body ++ '\x7d' :: after) =
      some ('\x7b' :: body ++ ['\x7d'], after) := by
  have hmark : InAnyCase "@put:\x7b".toList "@put:\x7b".toList :=
    List.forall₂_same.2 fun c _ => Unicode.mem_letterForms_self c
  exact Stage.put?_eq_some_iff.2 ⟨_, body, hmark, hbody, hclosed, rfl, by simp⟩

theorem memberTexts_eq_cons (hne : pairs ≠ []) : ∃ more, memberTexts
    (pairs.map fun (name, rule) => (name, .string rule)) = '"' :: more := by
  obtain ⟨⟨name, rule⟩, rest, rfl⟩ := List.exists_cons_of_ne_nil hne
  exact ⟨_, rfl⟩

theorem directive_append (pairs : List (String × String)) (t : List Char) :
    directive pairs ++ t = "@put:".toList ++ ((objectOf pairs).text ++ t) :=
  List.append_assoc _ _ _

theorem put?_directive (hne : pairs ≠ []) (h : Unbraced pairs) (t : List Char) :
    Stage.put? (directive pairs ++ t) = some ((objectOf pairs).text, t) := by
  obtain ⟨more, hmembers⟩ := memberTexts_eq_cons hne
  have hput := put?_append (by rw [hmembers]; simp) (brace_not_mem_memberTexts.2 h) t
  rw [directive_append, text_objectOf]
  simpa only [List.append_assoc, List.cons_append, List.nil_append] using hput

/-- The object is cut at the first closing brace, and what is cut off is no JSON text. -/
theorem exists_put?_directive (hnames : (pairs.map Prod.fst).Nodup) (h : ¬ Unbraced pairs)
    (t : List Char) :
    ∃ front back, (objectOf pairs).text = front ++ '\x7d' :: (back ++ ['\x7d']) ∧
      '\x7d' ∉ front ∧ Stage.putBindings (front ++ ['\x7d']) = [] ∧
      Stage.put? (directive pairs ++ t) = some (front ++ ['\x7d'], back ++ '\x7d' :: t) := by
  have hne : pairs ≠ [] := by
    rintro rfl
    exact h (by simp [Unbraced])
  have hmem : '\x7d' ∈ memberTexts (pairs.map fun (name, rule) => (name, .string rule)) := by
    by_contra hnone
    exact h (brace_not_mem_memberTexts.1 hnone)
  obtain ⟨body, back, hcut, hclosed⟩ := List.eq_append_cons_of_mem hmem
  obtain ⟨more, hmembers⟩ := memberTexts_eq_cons hne
  have hbody : body ≠ [] := by
    rintro rfl
    rw [hmembers] at hcut
    exact absurd (List.cons.inj hcut).1 (by decide)
  have htext : (objectOf pairs).text =
      '\x7b' :: body ++ '\x7d' :: (back ++ ['\x7d']) := by
    rw [text_objectOf, hcut]
    simp
  refine ⟨'\x7b' :: body, back, htext, by simp [hclosed], ?_, ?_⟩
  · unfold Stage.putBindings
    split
    next members hparse =>
      -- the whole object would be this one with white space behind it
      have hwhole : (Json.parse? ('\x7b' :: body ++ ['\x7d'] ++ (back ++ ['\x7d']))).isSome := by
        have htext' : '\x7b' :: body ++ ['\x7d'] ++ (back ++ ['\x7d']) = (objectOf pairs).text := by
          simp [htext]
        rw [htext', parse?_text_objectOf hnames]
        rfl
      have hblanks := Json.blanks_of_parse?_append hparse hwhole
      exact absurd (hblanks '\x7d' (by simp)) (by decide)
    next => rfl
  · rw [directive_append, htext]
    simpa only [List.append_assoc, List.cons_append, List.nil_append] using
      put?_append hbody hclosed (back ++ '\x7d' :: t)

theorem not_mentionsPut_append_brace {back : List Char} (hback : ¬ MentionsPut back)
    (ht : ¬ MentionsPut t) : ¬ MentionsPut (back ++ '\x7d' :: t) := by
  intro h
  have hbrace : '\x7d' ∉ "@put:".toList := by decide
  rw [MentionsPut, Text.lowerAscii, List.map_append, List.map_cons] at h
  exact (Text.isInfix_append_cons hbrace h).elim hback ht

/-- Bindings are read back where no name and no rule holds a closing brace, whatever the order
they are written in.  Otherwise what stands behind the first such brace is left in the stage. -/
theorem parse_directive (hordered : bindings.Ordered) (hne : bindings ≠ [])
    (hpairs : pairs.Perm bindings) (ht : ¬ MentionsPut t) (content : Content) :
    let stage := Stage.parse content (directive pairs ++ t)
    (Unbraced pairs → stage = { Stage.parse content t with bindings := bindings }) ∧
    (¬ Unbraced pairs → ∃ front rest, (objectOf pairs).text = front ++ '\x7d' :: rest ∧
      '\x7d' ∉ front ∧ rest ≠ [] ∧ stage = Stage.parse content (rest ++ t)) ∧
    (¬ MentionsPut (objectOf pairs).text →
      (stage = { Stage.parse content t with bindings := bindings } ↔ Unbraced pairs)) := by
  intro stage
  have hnames : (pairs.map Prod.fst).Nodup := (hpairs.map Prod.fst).nodup_iff.2 hordered.nodup
  have hread : Unbraced pairs → stage = { Stage.parse content t with bindings := bindings } := by
    intro hunbraced
    have hpairsNe : pairs ≠ [] := by
      rintro rfl
      exact hne hpairs.nil_eq.symm
    have hsplit := Stage.splitPuts_of_put? (put?_directive hpairsNe hunbraced t)
    rw [putBindings_objectOf hnames, Stage.putsFrom_eq_nil (Stage.put?_eq_none_of_isSuffix ht),
      List.flatMap_nil, List.append_nil, Bindings.ofPairs_eq_of_perm hordered hpairs,
      Stage.splitPuts_eq ht] at hsplit
    exact Stage.parse_of_splitPuts hsplit (Stage.splitPuts_eq ht) content
  refine ⟨hread, fun hbraced => ?_, fun htext => ⟨fun hstage => ?_, hread⟩⟩
  · obtain ⟨front, back, htext, hclosed, hdropped, hput⟩ := exists_put?_directive hnames hbraced t
    have hsplit := Stage.splitPuts_of_dropped hput hdropped
    refine ⟨front, back ++ ['\x7d'], htext, hclosed, by simp, ?_⟩
    simpa using Stage.parse_congr hsplit content
  · by_contra hbraced
    obtain ⟨front, back, hcut, -, hdropped, hput⟩ := exists_put?_directive hnames hbraced t
    have hback : ¬ MentionsPut back := by
      refine fun hmentions => htext (hmentions.of_isInfix ?_)
      exact ⟨front ++ ['\x7d'], ['\x7d'], by simp [hcut]⟩
    have hsplit := Stage.splitPuts_of_dropped hput hdropped
    rw [Stage.splitPuts_eq (not_mentionsPut_append_brace hback ht)] at hsplit
    have hnone : stage.bindings = [] := by
      simp [stage, Stage.parse, hsplit]
    rw [hstage] at hnone
    exact hne hnone

/-- A path is read back, and a path beside a reference to a variable is not. -/
theorem parse_directive_lookup :
    let alone : Bindings := [("a", "$.b")]
    let both : Bindings := [("a", "$.b"), ("k", "@get:\x7bx\x7d")]
    let pairs := [("k", "@get:\x7bx\x7d"), ("a", "$.b")]
    let t := "class.a@text".toList
    (alone.Ordered ∧ alone ≠ [] ∧ both.Ordered ∧ both ≠ [] ∧ pairs.Perm both ∧
      ¬ MentionsPut t ∧ Unbraced alone ∧ ¬ Unbraced pairs ∧ ¬ MentionsPut (objectOf pairs).text) ∧
    Stage.parse .markup (directive alone ++ t) =
      { Stage.parse .markup t with bindings := alone } ∧
    Stage.parse .markup (directive pairs ++ t) ≠
      { Stage.parse .markup t with bindings := both } := by
  intro alone both pairs t
  have halone : alone.Ordered := List.pairwise_singleton _ _
  have hboth : both.Ordered := by
    rw [Bindings.Ordered]
    decide
  have hperm : pairs.Perm both := .swap _ _ _
  have ht : ¬ MentionsPut t := by decide
  have hunbraced : Unbraced alone := by decide
  have hbraced : ¬ Unbraced pairs := by decide
  have htext : ¬ MentionsPut (objectOf pairs).text := by decide +kernel
  refine ⟨⟨halone, by simp [alone], hboth, by simp [both], hperm, ht, hunbraced, hbraced, htext⟩,
    ?_, fun hstage => hbraced ?_⟩
  · exact (parse_directive halone (by simp [alone]) (.refl _) ht .markup).1 hunbraced
  · exact ((parse_directive hboth (by simp [both]) hperm ht .markup).2.2 htext).1 hstage

/-- Bindings that hold a placeholder are not read back. -/
theorem not_parse_directive :
    ¬ ∀ (bindings : Bindings) (t : List Char) (content : Content), bindings.Ordered →
      bindings ≠ [] → Text.trim t ≠ [] → ¬ MentionsPut t →
      Stage.parse content (directive bindings ++ t) =
        { Stage.parse content t with bindings := bindings } := by
  intro hall
  have hstage := hall [("k", "\x7b\x7bx\x7d\x7d")] "class.a@text".toList .markup
    (List.pairwise_singleton _ _) (by simp) (by decide) (by decide)
  have hnone : (Stage.parse .markup (directive [("k", "\x7b\x7bx\x7d\x7d")] ++
      "class.a@text".toList)).bindings = [] := by
    decide +kernel
  rw [hstage] at hnone
  cases hnone

end BookRules.Rule
