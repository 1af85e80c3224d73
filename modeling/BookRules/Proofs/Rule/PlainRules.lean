import BookRules.Proofs.Rule.Puts
import Mathlib.Data.List.Infix

/-!
# Plain rules

A rule is plain if none of the marks stands in it that begin a script, variables, a
placeholder, a reference to a group or a replacement.  A plain rule without a prefix is one
stage, and all of it is the selector.

Two plain rules with a combinator between them are a plain rule: every mark is recognised
from its front, and none holds a character of a combinator, so none can reach across it.
-/

namespace BookRules.Rule

/-- The marks that begin what is no selector. -/
def marks : List String :=
  ["<script>", "<js>", "@script:", "@js:", "@put:\x7b", "@get:\x7b", "\x7b\x7b", "##"]

/-- A reference to a group stands in front. -/
def beginsReference : List Char → Bool
  | '$' :: c :: _ => Decimal.isDigit c
  | _ => false

/-- A mark or a reference stands in front. -/
def beginsMark (cs : List Char) : Bool :=
  beginsReference cs || marks.any fun mark => (Unicode.afterFolded? mark.toList cs).isSome

/-- Nothing but a selector stands in the text. -/
def IsPlain (cs : List Char) : Prop :=
  ∀ tail ∈ cs.tails, beginsMark tail = false

instance (cs : List Char) : Decidable (IsPlain cs) :=
  inferInstanceAs (Decidable (∀ tail ∈ cs.tails, _))

variable {cs front back part : List Char}

theorem beginsMark_eq_false_iff : beginsMark cs = false ↔
    beginsReference cs = false ∧
      ∀ mark ∈ marks, Unicode.afterFolded? mark.toList cs = none := by
  simp [beginsMark]

theorem beginsReference_of_append (h : beginsReference (front ++ back) = false) :
    beginsReference front = false := by
  match front with
  | [] => rfl
  | [_] => simp [beginsReference]
  | c :: d :: rest =>
      by_cases hdollar : c = '$'
      · subst hdollar
        exact h
      · simp [beginsReference, hdollar]

theorem beginsMark_of_append (h : beginsMark (front ++ back) = false) :
    beginsMark front = false := by
  rw [beginsMark_eq_false_iff] at h ⊢
  exact ⟨beginsReference_of_append h.1,
    fun mark hmark => Unicode.afterFolded?_eq_none_of_append (h.2 mark hmark)⟩

/-- No mark holds a character of a combinator. -/
theorem marks_free : (marks.all fun mark => mark.toList.all fun w =>
    !(w == '|' || Unicode.fold w.toNat == Unicode.fold '|'.toNat)) = true := by
  decide +kernel

theorem beginsReference_append_bar (h : beginsReference front = false) (back : List Char) :
    beginsReference (front ++ '|' :: back) = false := by
  match front with
  | [] => rfl
  | [c] =>
      by_cases hdollar : c = '$'
      · subst hdollar
        rfl
      · simp [beginsReference, hdollar]
  | c :: d :: rest =>
      by_cases hdollar : c = '$'
      · subst hdollar
        exact h
      · simp [beginsReference, hdollar]

theorem beginsMark_append_bar (h : beginsMark front = false) (back : List Char) :
    beginsMark (front ++ '|' :: back) = false := by
  rw [beginsMark_eq_false_iff] at h ⊢
  refine ⟨beginsReference_append_bar h.1 back, fun mark hmark => ?_⟩
  refine Unicode.afterFolded?_append_cons (fun w hw => ?_) (h.2 mark hmark) back
  simpa using List.all_eq_true.1 (List.all_eq_true.1 marks_free mark hmark) w hw

theorem IsPlain.of_isInfix (h : IsPlain cs) (hpart : part <:+: cs) : IsPlain part := by
  obtain ⟨before, after, rfl⟩ := hpart
  intro tail htail
  obtain ⟨front, rfl⟩ := (List.mem_tails tail part).1 htail
  have hlonger : beginsMark (tail ++ after) = false := by
    apply h
    rw [List.mem_tails]
    exact ⟨before ++ front, by simp⟩
  exact beginsMark_of_append hlonger

/-- A combinator between two plain rules makes no mark. -/
theorem IsPlain.or {a b : List Char} (ha : IsPlain a) (hb : IsPlain b) :
    IsPlain (a ++ '|' :: '|' :: b) := by
  have hbar : beginsMark ([] ++ '|' :: b) = false := beginsMark_append_bar (by decide +kernel) b
  intro tail htail
  rw [List.tails_append, List.mem_append, List.mem_map] at htail
  rcases htail with ⟨front, hfront, rfl⟩ | hback
  · exact beginsMark_append_bar (ha front hfront) ('|' :: b)
  · have hback' : tail = '|' :: b ∨ tail ∈ b.tails := by simpa [List.tails] using hback
    rcases hback' with rfl | hb'
    · exact hbar
    · exact hb tail hb'

/-! ## What is not found in a plain rule -/

theorem IsPlain.afterFolded?_eq_none (h : IsPlain cs) {mark : String} (hmark : mark ∈ marks)
    {tail : List Char} (htail : tail <:+ cs) :
    Unicode.afterFolded? mark.toList tail = none :=
  (beginsMark_eq_false_iff.1 (h tail ((List.mem_tails tail cs).2 htail))).2 mark hmark

theorem IsPlain.not_isInfix (h : IsPlain cs) {mark : String} (hmark : mark ∈ marks) :
    ¬ mark.toList <:+: cs := by
  rintro ⟨before, after, rfl⟩
  have htail : mark.toList ++ after <:+ before ++ mark.toList ++ after := ⟨before, by simp⟩
  have hsome := Unicode.isSome_afterFolded?_append mark.toList after
  rw [h.afterFolded?_eq_none hmark htail] at hsome
  simp at hsome

theorem IsPlain.of_cons {c : Char} (h : IsPlain (c :: cs)) : IsPlain cs :=
  h.of_isInfix (List.suffix_cons c cs).isInfix

theorem IsPlain.script?_eq_none (h : IsPlain cs) : Piece.script? cs = none := by
  have htagged : ∀ mark ∈ marks, ∀ closing, Piece.tagged? mark.toList closing cs = none := by
    intro mark hmark closing
    rw [Piece.tagged?, h.afterFolded?_eq_none hmark List.suffix_rfl]
  have htail : ∀ mark ∈ marks, Piece.tail? mark.toList cs = none := by
    intro mark hmark
    rw [Piece.tail?, h.afterFolded?_eq_none hmark List.suffix_rfl]
    rfl
  rw [Piece.script?, htagged "<script>" (by decide), htagged "<js>" (by decide),
    htail "@script:" (by decide), htail "@js:" (by decide)]
  rfl

/-- A plain rule is one piece. -/
theorem IsPlain.cutFrom_eq (h : IsPlain cs) (gap : List Char) :
    Piece.cutFrom 0 gap cs = [.text (gap.reverse ++ cs)] := by
  induction cs generalizing gap with
  | nil => simp [Piece.cutFrom]
  | cons c rest ih =>
      rw [Piece.cutFrom, h.script?_eq_none]
      simpa using ih h.of_cons (c :: gap)

theorem IsPlain.splitPuts_eq (h : IsPlain cs) : Stage.splitPuts cs = ([], cs) := by
  apply Stage.splitPuts_eq_self
  intro tail htail
  rw [Stage.put?, h.afterFolded?_eq_none (by decide) htail]

theorem IsPlain.placeholder?_eq_none (h : IsPlain cs) : Segment.placeholder? cs = none := by
  have hbraces : ¬ ['\x7b', '\x7b'] <:+: cs := by
    simpa using h.not_isInfix (show "\x7b\x7b" ∈ marks by decide)
  have hget := h.afterFolded?_eq_none (show "@get:\x7b" ∈ marks by decide) List.suffix_rfl
  unfold Segment.placeholder?
  rw [hget]
  dsimp only
  split
  next rest => exact absurd (List.prefix_append ['\x7b', '\x7b'] rest).isInfix hbraces
  next => rfl

theorem IsPlain.scanFrom_eq (h : IsPlain cs) (gap : List Char) :
    Segment.scanFrom true 0 gap cs =
      (Segment.ofGap true (gap.reverse ++ cs),
        (Segment.ofGap true (gap.reverse ++ cs)).any fun s => !s.isLiteral) := by
  induction cs generalizing gap with
  | nil => simp [Segment.scanFrom]
  | cons c rest ih =>
      rw [Segment.scanFrom, h.placeholder?_eq_none]
      simpa using ih h.of_cons (c :: gap)

theorem natural?_referenceDigits (h : beginsReference ('$' :: cs) = false) :
    Decimal.natural? (Segment.referenceDigits cs) = none := by
  match cs with
  | [] => rfl
  | [c] =>
      have hdigit : Decimal.isDigit c = false := h
      rw [Segment.referenceDigits]
      split_ifs
      · simp [Decimal.natural?, hdigit]
      · rfl
  | c :: d :: rest =>
      have hdigit : Decimal.isDigit c = false := h
      rw [Segment.referenceDigits]
      split_ifs
      · simp [Decimal.natural?, hdigit]
      · simp [Decimal.natural?, hdigit]
      · rfl

theorem IsPlain.referencesFrom_eq (h : IsPlain cs) (text : List Char) :
    Segment.referencesFrom 0 text cs = Segment.ofText (text.reverse ++ cs) := by
  induction cs generalizing text with
  | nil => simp [Segment.referencesFrom]
  | cons c rest ih =>
      have hnone : Decimal.natural? (if c = '$' then Segment.referenceDigits rest else []) =
          none := by
        split_ifs with hdollar
        · subst hdollar
          exact natural?_referenceDigits (beginsMark_eq_false_iff.1 (h _ (by simp))).1
        · rfl
      rw [Segment.referencesFrom, hnone]
      simpa using ih h.of_cons (c :: text)

/-- A text without `##` is in front of them as a whole. -/
theorem Segment.cutAtMark_eq (h : ¬ ['#', '#'] <:+: cs) : Segment.cutAtMark cs = (cs, []) := by
  unfold Segment.cutAtMark
  cases hcut : Text.cutAt? ['#', '#'] cs with
  | none => rfl
  | some found => exact absurd ⟨found.1, found.2, Text.append_of_cutAt? hcut⟩ h

theorem IsPlain.scan_eq (h : IsPlain cs) (hne : cs ≠ []) :
    Segment.scan cs = ([.literal (String.ofList cs)], false) := by
  have hmark := h.not_isInfix (show "##" ∈ marks by decide)
  have hcut : Segment.cutAtMark cs = (cs, []) := Segment.cutAtMark_eq (by simpa using hmark)
  have hgap : Segment.ofGap true cs = [.literal (String.ofList cs)] := by
    simp [Segment.ofGap, hcut, h.referencesFrom_eq, Segment.ofText, hne]
  rw [Segment.scan, h.scanFrom_eq]
  simp [hgap, Segment.joinLiterals, Segment.isLiteral]

/-- Where no `##` stands nothing is replaced. -/
theorem splitReplacement_eq (h : ¬ ['#', '#'] <:+: cs) :
    splitReplacement cs =
      { rule := String.ofList (Text.trim cs), pattern := "", replacement := "",
        firstOnly := false } := by
  simp [splitReplacement, Text.splitAll, Text.splitAllFrom_eq h]

theorem IsPlain.splitReplacement_eq (h : IsPlain cs) :
    splitReplacement cs =
      { rule := String.ofList (Text.trim cs), pattern := "", replacement := "",
        firstOnly := false } := by
  have hmark := h.not_isInfix (show "##" ∈ marks by decide)
  exact Rule.splitReplacement_eq (by simpa using hmark)

/-! ## Prefixes -/

/-- A prefix that names a mode stands in front. -/
def hasPrefix (cs : List Char) : Bool :=
  ["@css:", "@xpath:", "@json:"].any
      (fun mark => (Text.stripFrontNoCase? mark.toList cs).isSome) ||
    (Text.stripFront? "@@".toList cs).isSome

theorem hasPrefix_eq_false_iff : hasPrefix cs = false ↔
    (∀ mark ∈ ["@css:", "@xpath:", "@json:"], Text.stripFrontNoCase? mark.toList cs = none) ∧
      Text.stripFront? "@@".toList cs = none := by
  simp [hasPrefix]

/-- The mode of a rule without a prefix. -/
def bareMode (content : Content) (cs : List Char) : Mode :=
  match content with
  | .groups => .template
  | .json => .jsonPath
  | .markup =>
    if ['$', '.'] <+: cs ∨ ['$', '['] <+: cs then .jsonPath
    else if ['/'] <+: cs then .xpath else .css

theorem bareMode_mem {content : Content} (hcontent : content ≠ .groups) (cs : List Char) :
    bareMode content cs ∈ [.css, .xpath, .jsonPath] := by
  cases content with
  | groups => exact absurd rfl hcontent
  | json => simp [bareMode]
  | markup =>
      simp only [bareMode]
      split_ifs <;> simp

/-- What a mode is found by. -/
def modeFronts : List (List Char) :=
  ["@css:".toList, "@xpath:".toList, "@json:".toList, "@@".toList, ['$', '.'], ['$', '['], ['/']]

def modeChars : List Char :=
  modeFronts.flatten

/-- The mode that a prefix names, and the rule behind the prefix. -/
def prefixed? (cs : List Char) : Option (Mode × List Char) :=
  ((Text.stripFront? "@@".toList cs).map (Mode.css, ·)).or
    (((Text.stripFrontNoCase? "@xpath:".toList cs).map (Mode.xpath, ·)).or
      ((Text.stripFrontNoCase? "@json:".toList cs).map (Mode.jsonPath, ·)))

theorem detect_eq (content : Content) (cs : List Char) : Mode.detect content cs =
    if content = .groups then (.template, cs)
    else if (Text.stripFrontNoCase? "@css:".toList cs).isSome then (.css, cs)
    else (prefixed? cs).getD (bareMode content cs, cs) := by
  unfold Mode.detect prefixed?
  split_ifs with hgroups hcss
  · rfl
  · rfl
  · cases Text.stripFront? "@@".toList cs with
    | some rest => rfl
    | none =>
        cases Text.stripFrontNoCase? "@xpath:".toList cs with
        | some rest => rfl
        | none =>
            cases Text.stripFrontNoCase? "@json:".toList cs with
            | some rest => rfl
            | none =>
                cases content with
                | groups => exact absurd rfl hgroups
                | json => rfl
                | markup =>
                    dsimp only
                    split
                    next hjson => cases hjson
                    next => simp [bareMode]
                    next => simp [bareMode]
                    next => simp [bareMode]
                    next rule _ _ hdot hbracket hslash _ =>
                      have hpath : ¬ (['$', '.'] <+: rule ∨ ['$', '['] <+: rule) := by
                        rintro (⟨rest, rfl⟩ | ⟨rest, rfl⟩)
                        · exact hdot rest rfl
                        · exact hbracket rest rfl
                      have hxpath : ¬ ['/'] <+: rule := by
                        rintro ⟨rest, rfl⟩
                        exact hslash rest rfl
                      simp [bareMode, if_neg hpath, if_neg hxpath]

/-- A rule without a prefix stays as it is. -/
theorem detect_of_not_hasPrefix (content : Content) (h : hasPrefix cs = false) :
    Mode.detect content cs = (bareMode content cs, cs) := by
  obtain ⟨hmarks, hplain⟩ := hasPrefix_eq_false_iff.1 h
  rw [detect_eq, prefixed?, hmarks "@css:" (by simp), hmarks "@xpath:" (by simp),
    hmarks "@json:" (by simp), hplain]
  cases content <;> rfl

theorem hasPrefix_append_cons {c : Char} (hlower : c.toLower = c) (hc : c ∉ modeChars)
    (h : hasPrefix front = false) (back : List Char) : hasPrefix (front ++ c :: back) = false := by
  have hfree : ∀ p ∈ modeFronts, c ∉ p := fun p hp hmem => hc (List.mem_flatten_of_mem hp hmem)
  rw [hasPrefix_eq_false_iff] at h ⊢
  constructor
  · intro mark hmark
    have hmarks : ∀ mark ∈ ["@css:", "@xpath:", "@json:"],
        Text.lowerAscii mark.toList ∈ modeFronts := by
      decide
    apply Text.stripFrontNoCase?_append_cons _ (h.1 mark hmark)
    rw [hlower]
    exact hfree _ (hmarks mark hmark)
  · rw [Text.stripFront?_eq_none_iff, Text.isPrefix_append_cons_iff (hfree _ (by decide)),
      ← Text.stripFront?_eq_none_iff]
    exact h.2

/-- The mode is found in front of the first character that no mode is found by. -/
theorem bareMode_append_cons (content : Content) {c : Char} (hc : c ∉ modeChars)
    (back : List Char) : bareMode content (front ++ c :: back) = bareMode content front := by
  have hfront : ∀ p ∈ modeFronts, (p <+: front ++ c :: back ↔ p <+: front) := fun p hp =>
    Text.isPrefix_append_cons_iff (fun hmem => hc (List.mem_flatten_of_mem hp hmem)) back
  simp only [bareMode, hfront ['$', '.'] (by decide), hfront ['$', '['] (by decide),
    hfront ['/'] (by decide)]

/-- No mode is found by a blank or a bar. -/
theorem not_mem_modeChars {c : Char} (h : Text.isBlank c = true ∨ c = '|') :
    c ∉ modeChars ∧ c.toLower = c := by
  rcases h with hblank | rfl
  · have hchars : modeChars.any Text.isBlank = false := by decide
    constructor
    · intro hmem
      exact List.any_eq_false.1 hchars c hmem hblank
    · have hcapital : ¬ (65 ≤ c.toNat ∧ c.toNat ≤ 90) := by
        simp only [Text.isBlank, Bool.or_eq_true, Bool.and_eq_true, decide_eq_true_eq,
          beq_iff_eq] at hblank
        omega
      unfold Char.toLower
      rw [dif_neg]
      rintro ⟨hlow, hhigh⟩
      exact hcapital ⟨hlow, hhigh⟩
  · decide

/-- A trimmed rule of two operands starts with the first one, up to a blank or a bar. -/
theorem exists_trim_or (ha : Text.trim front ≠ []) (hb : Text.trim back ≠ []) :
    ∃ c rest, (Text.isBlank c = true ∨ c = '|') ∧
      Text.trim (front ++ '|' :: '|' :: back) = Text.trim front ++ c :: rest := by
  obtain ⟨blank, hblank, hfront⟩ := Text.exists_trimEnd_append_blank (Text.trimStart front)
  have htrim : Text.trim (front ++ '|' :: '|' :: back) =
      Text.trim front ++ (blank ++ '|' :: '|' :: Text.trimEnd back) := by
    calc
      Text.trim (front ++ '|' :: '|' :: back) =
          Text.trimStart front ++ ['|', '|'] ++ Text.trimEnd back := by
        rw [← Text.trim_append_append ha hb, List.append_assoc]
        rfl
      _ = Text.trim front ++ blank ++ ['|', '|'] ++ Text.trimEnd back := by
        rw [← hfront]
        rfl
      _ = Text.trim front ++ (blank ++ '|' :: '|' :: Text.trimEnd back) := by simp
  cases blank with
  | nil => exact ⟨'|', '|' :: Text.trimEnd back, Or.inr rfl, htrim⟩
  | cons c blank => exact ⟨c, _, Or.inl (hblank c List.mem_cons_self), htrim⟩

/-- Two operands with a combinator between them have the mode of the first one. -/
theorem detect_or (content : Content) (ha : Text.trim front ≠ []) (hb : Text.trim back ≠ [])
    (h : hasPrefix (Text.trim front) = false) :
    hasPrefix (Text.trim (front ++ '|' :: '|' :: back)) = false ∧
      bareMode content (Text.trim (front ++ '|' :: '|' :: back)) =
        bareMode content (Text.trim front) := by
  obtain ⟨c, rest, hc, htrim⟩ := exists_trim_or ha hb
  obtain ⟨hmem, hlower⟩ := not_mem_modeChars hc
  rw [htrim]
  exact ⟨hasPrefix_append_cons hlower hmem h rest, bareMode_append_cons content hmem rest⟩

/-! ## One stage -/

theorem IsPlain.parse_eq (h : IsPlain cs) (hne : Text.trim cs ≠ [])
    (hbare : hasPrefix (Text.trim cs) = false) (content : Content) :
    Stage.parse content cs =
      { mode := bareMode content (Text.trim cs), expression := String.ofList (Text.trim cs) } := by
  have htrim : IsPlain (Text.trim cs) := h.of_isInfix (Text.trim_isInfix cs)
  simp only [Stage.parse, h.splitPuts_eq, detect_of_not_hasPrefix content hbare,
    htrim.scan_eq hne, htrim.splitReplacement_eq, Text.trim_trim]
  rfl

/-- A plain rule is one stage without a replacement, and its text is the selector. -/
theorem IsPlain.pipeline_eq {rule : String} (h : IsPlain rule.toList)
    (hne : Text.trim rule.toList ≠ []) (hbare : hasPrefix (Text.trim rule.toList) = false)
    (content : Content) :
    pipeline content rule =
      [{ mode := bareMode content (Text.trim rule.toList), expression := Text.trimmed rule }] := by
  have htrim : IsPlain (Text.trim rule.toList) := h.of_isInfix (Text.trim_isInfix rule.toList)
  have hstage := htrim.parse_eq (by rwa [Text.trim_trim]) (by rwa [Text.trim_trim]) content
  rw [Text.trim_trim] at hstage
  simp [pipeline, Piece.cut, h.cutFrom_eq, Piece.stage?, hne, hstage, Text.trimmed]

end BookRules.Rule
