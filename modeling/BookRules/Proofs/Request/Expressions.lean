import BookRules.Proofs.Text.Cuttings
import BookRules.Request.Search
import Mathlib.Data.List.SplitBy

/-!
# The keyword in an expression

In an expression the keyword and the number of the page are put in by two replacements, one
after the other, so the second one also goes over what the first one put in.  Words end at
signs, and a quoted keyword begins and ends with one, hence nothing around the keyword is
joined to it; but a keyword that holds the word `page` is written with the number in its
place.  For all other keywords the two replacements are one.
-/

namespace BookRules.Request

open Text (Cutting Cuts InBraces)

def sameWord (a b : Char) : Bool :=
  Unicode.isWord a.toNat && Unicode.isWord b.toNat

/-- The words of a text and the signs between them, in order. -/
def wordRuns (cs : List Char) : List (List Char) :=
  cs.splitBy sameWord

/-- A text with something else in the place of its words. -/
def mapRuns (replace : List Char → List Char) (cs : List Char) : List Char :=
  (wordRuns cs).flatMap replace

/-- Something else for words only, and no word in the place of none. -/
structure ReplacesWords (replace : List Char → List Char) : Prop where
  none : replace [] = []
  sign : ∀ c, Unicode.isWord c.toNat = false → replace [c] = [c]

variable {c : Char} {word cs rest : List Char} {f g : List Char → List Char}

theorem wordRuns_of_word (hne : word ≠ []) (h : ∀ c ∈ word, Unicode.isWord c.toNat = true) :
    wordRuns word = [word] := by
  refine List.splitBy_of_isChain hne ?_
  induction word with
  | nil => exact .nil
  | cons a word ih =>
      rw [List.forall_mem_cons] at h
      cases word with
      | nil => exact .singleton a
      | cons b word =>
          have hb := h.2 b List.mem_cons_self
          exact .cons_cons (by simp [sameWord, h.1, hb]) (ih (by simp) h.2)

theorem wordRuns_append_cons (hc : Unicode.isWord c.toNat = false) (cs rest : List Char) :
    wordRuns (cs ++ c :: rest) = wordRuns cs ++ [c] :: wordRuns rest := by
  have hsign : wordRuns (c :: rest) = [c] :: wordRuns rest := by
    cases rest with
    | nil => rfl
    | cons d rest =>
        have hd : ∀ x ∈ [c].getLast?, sameWord x d = false := by simp [sameWord, hc]
        exact List.splitBy_append_cons rest hd
  have hcs : ∀ x ∈ cs.getLast?, sameWord x c = false := by simp [sameWord, hc]
  rw [← hsign]
  exact List.splitBy_append_cons rest hcs

theorem mapRuns_append_cons (hf : ReplacesWords f) (hc : Unicode.isWord c.toNat = false)
    (cs rest : List Char) : mapRuns f (cs ++ c :: rest) = mapRuns f cs ++ c :: mapRuns f rest := by
  rw [mapRuns, wordRuns_append_cons hc, List.flatMap_append, List.flatMap_cons, hf.sign c hc]
  rfl

theorem replaceWordsFrom_eq (hf : ReplacesWords f)
    (hword : ∀ c ∈ word, Unicode.isWord c.toNat = true) (cs : List Char) :
    replaceWordsFrom f word cs = mapRuns f (word.reverse ++ cs) := by
  have hrun : ∀ word : List Char, (∀ c ∈ word, Unicode.isWord c.toNat = true) →
      mapRuns f word.reverse = f word.reverse := by
    intro word hword
    by_cases hnil : word = []
    · simp [hnil, mapRuns, wordRuns, hf.none]
    · rw [mapRuns, wordRuns_of_word (by simpa using hnil) (by simpa using hword)]
      simp
  induction cs generalizing word with
  | nil => rw [replaceWordsFrom, List.append_nil, hrun word hword]
  | cons c rest ih =>
      rw [replaceWordsFrom]
      split
      next hc =>
        have hlonger : ∀ d ∈ c :: word, Unicode.isWord d.toNat = true :=
          List.forall_mem_cons.2 ⟨hc, hword⟩
        rw [ih hlonger]
        simp
      next hc =>
        have hsign : Unicode.isWord c.toNat = false := by simpa using hc
        rw [mapRuns_append_cons hf hsign, hrun word hword, ih (List.forall_mem_nil _)]
        simp

/-! ## One replacement behind the other -/

theorem replaceWordsFrom_sign (hc : Unicode.isWord c.toNat = false) (word rest : List Char) :
    replaceWordsFrom f word (c :: rest) = f word.reverse ++ c :: replaceWordsFrom f [] rest := by
  rw [replaceWordsFrom, if_neg (by simp [hc])]

theorem replaceWordsFrom_append_cons (hc : Unicode.isWord c.toNat = false) (word cs rest : List Char) :
    replaceWordsFrom f word (cs ++ c :: rest) =
      replaceWordsFrom f word cs ++ c :: replaceWordsFrom f [] rest := by
  induction cs generalizing word with
  | nil => simp [replaceWordsFrom, hc]
  | cons d cs ih =>
      rw [List.cons_append, replaceWordsFrom, replaceWordsFrom]
      split_ifs
      · exact ih (d :: word)
      · rw [ih []]
        simp

/-- The second replacement goes over what the first one put in. -/
theorem replaceWordsFrom_comp (word cs : List Char) :
    replaceWordsFrom g [] (replaceWordsFrom f word cs) =
      replaceWordsFrom (fun w => replaceWordsFrom g [] (f w)) word cs := by
  induction cs generalizing word with
  | nil => rfl
  | cons c rest ih =>
      rw [replaceWordsFrom, replaceWordsFrom]
      split_ifs with hc
      · exact ih (c :: word)
      · rw [replaceWordsFrom_append_cons (by simpa using hc), ih []]

theorem replaceWordsFrom_congr
    (h : ∀ w, (∀ c ∈ w, Unicode.isWord c.toNat = true) → f w = g w)
    (hword : ∀ c ∈ word, Unicode.isWord c.toNat = true) (cs : List Char) :
    replaceWordsFrom f word cs = replaceWordsFrom g word cs := by
  induction cs generalizing word with
  | nil => exact h word.reverse (by simpa using hword)
  | cons c rest ih =>
      rw [replaceWordsFrom, replaceWordsFrom]
      split_ifs with hc
      · exact ih (List.forall_mem_cons.2 ⟨hc, hword⟩)
      · rw [h word.reverse (by simpa using hword), ih (List.forall_mem_nil _)]

/-! ## Quoted texts -/

def escaped (c : Char) : List Char :=
  if c == '\\' || c == '"' then ['\\', c] else [c]

def quoted (cs : List Char) : List Char :=
  '"' :: cs.flatMap escaped ++ ['"']

theorem quotedKeyword_eq (keyword : String) : quotedKeyword keyword = quoted keyword.toList :=
  rfl

theorem escaped_of_isWord (hc : Unicode.isWord c.toNat = true) : escaped c = [c] := by
  have hsigns : (['\\', '"'].any fun d => Unicode.isWord d.toNat) = false := by decide
  unfold escaped
  rw [if_neg]
  intro hsign
  exact List.any_eq_false.1 hsigns c (by simpa using hsign) hc

theorem flatMap_escaped_of_isWord (h : ∀ c ∈ word, Unicode.isWord c.toNat = true) :
    word.flatMap escaped = word := by
  induction word with
  | nil => rfl
  | cons c word ih =>
      rw [List.forall_mem_cons] at h
      rw [List.flatMap_cons, escaped_of_isWord h.1, ih h.2]
      rfl

theorem replaceWordsFrom_escaped (hnil : f [] = []) (hc : Unicode.isWord c.toNat = false)
    (word rest : List Char) :
    replaceWordsFrom f word (escaped c ++ rest) =
      f word.reverse ++ escaped c ++ replaceWordsFrom f [] rest := by
  have hbackslash : Unicode.isWord '\\'.toNat = false := by decide
  unfold escaped
  split_ifs
  · rw [List.cons_append, List.singleton_append, replaceWordsFrom_sign hbackslash,
      replaceWordsFrom_sign hc, List.reverse_nil, hnil]
    simp
  · rw [List.singleton_append, replaceWordsFrom_sign hc]
    simp

theorem replaceWordsFrom_flatMap_escaped (hnil : f [] = [])
    (hf : ∀ w, (∀ c ∈ w, Unicode.isWord c.toNat = true) → (f w).flatMap escaped = f w)
    (hword : ∀ c ∈ word, Unicode.isWord c.toNat = true) (cs : List Char) :
    replaceWordsFrom f word (cs.flatMap escaped) = (replaceWordsFrom f word cs).flatMap escaped := by
  induction cs generalizing word with
  | nil => exact (hf word.reverse (by simpa using hword)).symm
  | cons c rest ih =>
      rw [List.flatMap_cons]
      by_cases hc : Unicode.isWord c.toNat = true
      · rw [escaped_of_isWord hc, List.singleton_append, replaceWordsFrom, replaceWordsFrom,
          if_pos hc, if_pos hc]
        exact ih (List.forall_mem_cons.2 ⟨hc, hword⟩)
      · have hsign : Unicode.isWord c.toNat = false := by simpa using hc
        rw [replaceWordsFrom_escaped hnil hsign, replaceWordsFrom_sign hsign,
          ih (List.forall_mem_nil _), List.flatMap_append, List.flatMap_cons,
          hf word.reverse (by simpa using hword), List.append_assoc]

theorem replaceWordsFrom_quoted (hnil : f [] = [])
    (hf : ∀ w, (∀ c ∈ w, Unicode.isWord c.toNat = true) → (f w).flatMap escaped = f w)
    (cs : List Char) : replaceWordsFrom f [] (quoted cs) = quoted (replaceWordsFrom f [] cs) := by
  have hquote : Unicode.isWord '"'.toNat = false := by decide
  unfold quoted
  rw [List.cons_append, replaceWordsFrom_sign hquote, replaceWordsFrom_append_cons hquote,
    replaceWordsFrom_flatMap_escaped hnil hf (List.forall_mem_nil _), List.reverse_nil, hnil]
  simp [replaceWordsFrom, hnil]

/-! ## The two replacements of an expression -/

def keyWords : List (List Char) :=
  ["searchKey".toList, "key".toList]

def pageWords : List (List Char) :=
  ["searchPage".toList, "page".toList]

def pageRun (page : Nat) (run : List Char) : List Char :=
  if run ∈ pageWords then Decimal.digitsOf page else run

/-- A text in the place of the words for the keyword, and the number in the place of its own. -/
def expressionRun (literal : List Char) (page : Nat) (run : List Char) : List Char :=
  if run ∈ keyWords then literal else pageRun page run

variable {page : Nat} {literal other : List Char}

theorem replacesWords_pageRun (page : Nat) : ReplacesWords (pageRun page) where
  none := rfl
  sign c _ := by simp [pageRun, pageWords]

theorem replacesWords_expressionRun (literal : List Char) (page : Nat) :
    ReplacesWords (expressionRun literal page) where
  none := rfl
  sign c hc := by simp [expressionRun, keyWords, (replacesWords_pageRun page).sign c hc]

theorem isDigit_of_mem_digitsOf (h : c ∈ Decimal.digitsOf page) : c.isDigit = true :=
  Nat.isDigit_of_mem_toDigits (by decide) (by decide) h

theorem isWord_of_isDigit (h : c.isDigit = true) : Unicode.isWord c.toNat = true := by
  have hcode : c.toNat < 128 := by
    simp only [Char.isDigit, Bool.and_eq_true, decide_eq_true_eq] at h
    have hlast : c.toNat ≤ 57 := h.2
    omega
  simp [Unicode.isWord, hcode, Char.isAlphanum, h]

theorem flatMap_escaped_pageRun (h : ∀ c ∈ word, Unicode.isWord c.toNat = true) :
    (pageRun page word).flatMap escaped = pageRun page word := by
  unfold pageRun
  split_ifs
  · exact flatMap_escaped_of_isWord fun c hc => isWord_of_isDigit (isDigit_of_mem_digitsOf hc)
  · exact flatMap_escaped_of_isWord h

theorem replaceWords_eq (long short value cs : List Char) :
    replaceWords long short value cs =
      replaceWordsFrom (fun w => if w ∈ [long, short] then value else w) [] cs := by
  simp [replaceWords]

/-- The keyword is put in with its own words for the page replaced. -/
theorem filledExpression_eq (keyword : String) (page : Nat) (body : List Char) :
    filledExpression keyword page body =
      mapRuns (expressionRun (quoted (mapRuns (pageRun page) keyword.toList)) page) body := by
  have hpage : ∀ cs, replaceWordsFrom (pageRun page) [] cs = mapRuns (pageRun page) cs :=
    replaceWordsFrom_eq (replacesWords_pageRun page) (List.forall_mem_nil _)
  have hkey : ∀ w, (∀ c ∈ w, Unicode.isWord c.toNat = true) →
      replaceWordsFrom (pageRun page) [] (if w ∈ keyWords then quotedKeyword keyword else w) =
        expressionRun (quoted (mapRuns (pageRun page) keyword.toList)) page w := by
    intro w hw
    unfold expressionRun
    split_ifs
    -- the quotes keep the words of the keyword apart from those around it
    · rw [quotedKeyword_eq, replaceWordsFrom_quoted rfl fun _ => flatMap_escaped_pageRun, hpage]
    · rw [hpage]
      by_cases hnil : w = []
      · subst hnil
        rfl
      · simp [mapRuns, wordRuns_of_word hnil hw]
  calc
    filledExpression keyword page body =
        replaceWordsFrom (pageRun page) []
          (replaceWordsFrom (fun w => if w ∈ keyWords then quotedKeyword keyword else w) [] body) := by
      rw [filledExpression, replaceWords_eq, replaceWords_eq]
      rfl
    _ = replaceWordsFrom (expressionRun (quoted (mapRuns (pageRun page) keyword.toList)) page) []
          body := by
      rw [replaceWordsFrom_comp]
      exact replaceWordsFrom_congr hkey (List.forall_mem_nil _) body
    _ = mapRuns (expressionRun (quoted (mapRuns (pageRun page) keyword.toList)) page) body :=
      replaceWordsFrom_eq (replacesWords_expressionRun _ page) (List.forall_mem_nil _) body

/-! ## Where the texts part -/

def Differs (xs ys : List Char) : Prop :=
  ∃ front a b back back', a ≠ b ∧ xs = front ++ a :: back ∧ ys = front ++ b :: back'

theorem Differs.ne {xs ys : List Char} (h : Differs xs ys) : xs ≠ ys := by
  obtain ⟨front, a, b, back, back', hne, rfl, rfl⟩ := h
  intro heq
  exact hne (List.cons.inj (List.append_cancel_left heq)).1

theorem Differs.append_left {xs ys : List Char} (h : Differs xs ys) (front : List Char) :
    Differs (front ++ xs) (front ++ ys) := by
  obtain ⟨shared, a, b, back, back', hne, rfl, rfl⟩ := h
  exact ⟨front ++ shared, a, b, back, back', hne, by simp, by simp⟩

theorem Differs.append_right {xs ys : List Char} (h : Differs xs ys) (more more' : List Char) :
    Differs (xs ++ more) (ys ++ more') := by
  obtain ⟨front, a, b, back, back', hne, rfl, rfl⟩ := h
  exact ⟨front, a, b, back ++ more, back' ++ more', hne, by simp, by simp⟩

/-- Texts put together from parts that are the same or part do so where the first parts do. -/
theorem differs_flatMap {α : Type} {f g : α → List Char} {xs : List α}
    (hall : ∀ x ∈ xs, f x = g x ∨ Differs (f x) (g x)) (hsome : ∃ x ∈ xs, Differs (f x) (g x)) :
    Differs (xs.flatMap f) (xs.flatMap g) := by
  induction xs with
  | nil => simp at hsome
  | cons x xs ih =>
      rw [List.forall_mem_cons] at hall
      rw [List.flatMap_cons, List.flatMap_cons]
      rcases hall.1 with hsame | hdiffers
      · obtain ⟨y, hy, hdiffers⟩ := hsome
        rcases List.mem_cons.1 hy with rfl | hrest
        · exact absurd hsame hdiffers.ne
        · rw [hsame]
          exact (ih hall.2 ⟨y, hrest, hdiffers⟩).append_left (g x)
      · exact hdiffers.append_right _ _

theorem differs_pageRun {run : List Char} (h : run ∈ pageWords) : Differs run (pageRun page run) := by
  have hnonempty : Decimal.digitsOf page ≠ [] := Nat.toDigits_ne_nil
  obtain ⟨d, digits, hdigits⟩ := List.exists_cons_of_ne_nil hnonempty
  have hmem : d ∈ Decimal.digitsOf page := by simp [hdigits]
  have hd : d.isDigit = true := isDigit_of_mem_digitsOf hmem
  have hletter : ∃ w rest, run = w :: rest ∧ w.isDigit = false := by
    have hwords : ∀ run ∈ pageWords, (run.head?.any fun w => !w.isDigit) = true := by decide
    have hfirst := hwords run h
    cases run with
    | nil => simp at hfirst
    | cons w rest => exact ⟨w, rest, rfl, by simpa using hfirst⟩
  obtain ⟨w, rest, hrun, hw⟩ := hletter
  have hne : w ≠ d := by
    rintro rfl
    rw [hd] at hw
    simp at hw
  rw [pageRun, if_pos h]
  exact ⟨[], w, d, rest, digits, hne, hrun, hdigits⟩

theorem isWord_of_mem_pageWords {run : List Char} (h : run ∈ pageWords) :
    ∀ c ∈ run, Unicode.isWord c.toNat = true := by
  have hwords : ∀ run ∈ pageWords, (run.all fun c => Unicode.isWord c.toNat) = true := by decide
  exact List.all_eq_true.1 (hwords run h)

theorem differs_quoted (cs : List Char) (h : ∃ run ∈ pageWords, run ∈ wordRuns cs) :
    Differs (quoted cs) (quoted (mapRuns (pageRun page) cs)) := by
  obtain ⟨found, hfound, hmem⟩ := h
  have hruns : cs.flatMap escaped = (wordRuns cs).flatMap fun run => run.flatMap escaped := by
    conv_lhs => rw [← List.flatten_splitBy sameWord cs]
    rw [← List.flatMap_id, List.flatMap_assoc]
    rfl
  have hmapped : (mapRuns (pageRun page) cs).flatMap escaped =
      (wordRuns cs).flatMap fun run => (pageRun page run).flatMap escaped := by
    rw [mapRuns, List.flatMap_assoc]
  have hword : ∀ run ∈ pageWords,
      Differs (run.flatMap escaped) ((pageRun page run).flatMap escaped) := by
    intro run hrun
    have hletters := isWord_of_mem_pageWords hrun
    rw [flatMap_escaped_of_isWord hletters, flatMap_escaped_pageRun hletters]
    exact differs_pageRun hrun
  have hinside : Differs (cs.flatMap escaped) ((mapRuns (pageRun page) cs).flatMap escaped) := by
    rw [hruns, hmapped]
    refine differs_flatMap (fun run _ => ?_) ⟨found, hmem, hword found hfound⟩
    by_cases hrun : run ∈ pageWords
    · exact Or.inr (hword run hrun)
    · left
      rw [pageRun, if_neg hrun]
  exact (hinside.append_left ['"']).append_right ['"'] ['"']

/-! ## The rule of a template -/

def writtenExpression (literal : List Char) (page : Nat) (body : List Char) : List Char :=
  '\x7b' :: '\x7b' :: mapRuns (expressionRun literal page) body ++ ['\x7d', '\x7d']

def written (literal : List Char) (page : Nat) (template : Cutting (List Char)) : List Char :=
  template.fill (writtenExpression literal page)

theorem differs_writtenExpression (h : Differs literal other) {body : List Char}
    (hbody : ∃ run ∈ keyWords, run ∈ wordRuns body) :
    Differs (writtenExpression literal page body) (writtenExpression other page body) := by
  obtain ⟨found, hfound, hmem⟩ := hbody
  have hword : ∀ run ∈ keyWords, Differs (expressionRun literal page run)
      (expressionRun other page run) := by
    intro run hrun
    rwa [expressionRun, expressionRun, if_pos hrun, if_pos hrun]
  have hinside : Differs (mapRuns (expressionRun literal page) body)
      (mapRuns (expressionRun other page) body) := by
    refine differs_flatMap (fun run _ => ?_) ⟨found, hmem, hword found hfound⟩
    by_cases hrun : run ∈ keyWords
    · exact Or.inr (hword run hrun)
    · left
      rw [expressionRun, expressionRun, if_neg hrun, if_neg hrun]
  exact (hinside.append_left ['\x7b', '\x7b']).append_right ['\x7d', '\x7d'] ['\x7d', '\x7d']

theorem writtenExpression_congr {body : List Char} (hbody : ∀ run ∈ keyWords, run ∉ wordRuns body) :
    writtenExpression literal page body = writtenExpression other page body := by
  have hinside : mapRuns (expressionRun literal page) body =
      mapRuns (expressionRun other page) body := by
    refine List.flatMap_congr fun run hrun => ?_
    have hkey : run ∉ keyWords := fun hmem => hbody run hmem hrun
    rw [expressionRun, expressionRun, if_neg hkey, if_neg hkey]
  rw [writtenExpression, writtenExpression, hinside]

theorem written_eq_iff {template : Cutting (List Char)} (hdiffers : Differs literal other) :
    written literal page template = written other page template ↔
      ∀ part ∈ template.spans, ∀ run ∈ keyWords, run ∉ wordRuns part.2 := by
  constructor
  · intro hsame
    by_contra hsome
    push Not at hsome
    obtain ⟨found, hfound, hkey⟩ := hsome
    have hpart : ∀ part : List Char × List Char, (∃ run ∈ keyWords, run ∈ wordRuns part.2) →
        Differs (part.1 ++ writtenExpression literal page part.2)
          (part.1 ++ writtenExpression other page part.2) :=
      fun part hbody => (differs_writtenExpression hdiffers hbody).append_left part.1
    have hspans : Differs
        (template.spans.flatMap fun part => part.1 ++ writtenExpression literal page part.2)
        (template.spans.flatMap fun part => part.1 ++ writtenExpression other page part.2) := by
      refine differs_flatMap (fun part _ => ?_) ⟨found, hfound, hpart found hkey⟩
      by_cases hbody : ∃ run ∈ keyWords, run ∈ wordRuns part.2
      · exact Or.inr (hpart part hbody)
      · push Not at hbody
        exact Or.inl (by rw [writtenExpression_congr hbody])
    exact (hspans.append_right template.last template.last).ne hsame
  · intro hfree
    exact Cutting.fill_congr fun part hpart => writtenExpression_congr (hfree part hpart)

theorem expression?_eq_some_iff {body after : List Char} :
    expression? cs = some (body, after) ↔ InBraces body cs after := by
  unfold expression?
  split
  next rest =>
    rw [Text.cutAt?_eq_some_iff (by simp)]
    simp [InBraces, eq_comm]
  next hnone =>
    constructor
    · simp
    · rintro ⟨rfl, -⟩
      exact absurd rfl (hnone _)

theorem preparedTemplate_eq (keyword : String) {template : List Char}
    {cutting : Cutting (List Char)} (h : Cuts InBraces template cutting) :
    preparedTemplate keyword page template =
      written (quoted (mapRuns (pageRun page) keyword.toList)) page cutting := by
  refine h.replaceSpans_eq Text.takesOff_inBraces fun cs out after => ?_
  rw [Option.map_eq_some_iff]
  constructor
  · rintro ⟨⟨body, behind⟩, hbody, heq⟩
    obtain ⟨rfl, rfl⟩ := Prod.mk.inj heq
    refine ⟨body, expression?_eq_some_iff.1 hbody, ?_⟩
    rw [filledExpression_eq]
    rfl
  · rintro ⟨body, hbody, rfl⟩
    refine ⟨(body, after), expression?_eq_some_iff.2 hbody, ?_⟩
    dsimp only
    rw [filledExpression_eq]
    rfl

theorem quoted_mapRuns_cases (page : Nat) (cs : List Char) :
    (∀ run ∈ pageWords, run ∉ wordRuns cs) ∧ quoted cs = quoted (mapRuns (pageRun page) cs) ∨
      (∃ run ∈ pageWords, run ∈ wordRuns cs) ∧
        Differs (quoted cs) (quoted (mapRuns (pageRun page) cs)) := by
  by_cases hword : ∃ run ∈ pageWords, run ∈ wordRuns cs
  · exact Or.inr ⟨hword, differs_quoted cs hword⟩
  · push Not at hword
    have hself : mapRuns (pageRun page) cs = cs := by
      conv_rhs => rw [← List.flatten_splitBy sameWord cs, ← List.flatMap_id]
      refine List.flatMap_congr fun run hrun => ?_
      rw [pageRun, if_neg fun hmem => hword run hmem hrun]
      rfl
    exact Or.inl ⟨hword, by rw [hself]⟩

/-- What the rule of a search gives; the rule itself where it gives nothing. -/
def evaluated (source : Source) (keyword : String) (page : Nat) (rule : List Char) : List Char :=
  let context : Context :=
    ({ baseUrl := source.url : Context }.put "key" keyword).put "page" (toString page)
  (((Finding.string? (.text "") (String.ofList rule)).run { context }).1.getD
    (String.ofList rule)).toList

/-- In every expression of a template the words for the keyword and for the page are replaced
at once, with the words for the page replaced in the keyword too.  The rule is the one with the
keyword as it is exactly if the keyword holds no word for the page or no expression a word
for the keyword. -/
theorem expressions_of_template (keyword : String) (page : Nat) (template : List Char) :
    ∃ cutting : Cutting (List Char), Cuts InBraces template cutting ∧
      (∀ other, Cuts InBraces template other → other = cutting) ∧
      let rule := written (quoted (mapRuns (pageRun page) keyword.toList)) page cutting
      (∀ source, evaluateExpressions source keyword page template =
        evaluated source keyword page rule) ∧
      (rule = written (quoted keyword.toList) page cutting ↔
        (∀ run ∈ pageWords, run ∉ wordRuns keyword.toList) ∨
          ∀ part ∈ cutting.spans, ∀ run ∈ keyWords, run ∉ wordRuns part.2) := by
  obtain ⟨cutting, hcuts⟩ := Text.exists_cuts Text.takesOff_inBraces template
  have hone : ∀ body body' cs after after', InBraces body cs after → InBraces body' cs after' →
      body = body' ∧ after = after' := by
    intro body body' cs after after' hbody hbody'
    have hsome := expression?_eq_some_iff.2 hbody
    rw [expression?_eq_some_iff.2 hbody'] at hsome
    simpa [eq_comm] using hsome
  refine ⟨cutting, hcuts, fun other hother => hother.unique Text.takesOff_inBraces hone hcuts,
    fun source => ?_, ?_⟩
  · rw [← preparedTemplate_eq keyword hcuts]
    rfl
  · rw [eq_comm]
    rcases quoted_mapRuns_cases page keyword.toList with ⟨hfree, hsame⟩ | ⟨hword, hdiffers⟩
    · rw [← hsame]
      exact iff_of_true rfl (Or.inl hfree)
    · have hnot : ¬ ∀ run ∈ pageWords, run ∉ wordRuns keyword.toList := by
        push Not
        exact hword
      rw [written_eq_iff hdiffers]
      exact (or_iff_right hnot).symm

theorem not_written_of_keyword_page :
    ¬ ∀ (keyword : String) (page : Nat) (template : List Char) (cutting : Cutting (List Char)),
      Cuts InBraces template cutting →
      preparedTemplate keyword page template = written (quoted keyword.toList) page cutting := by
  intro hall
  have hbody : InBraces "key + \"x\"".toList "\x7b\x7bkey + \"x\"\x7d\x7d".toList [] := by
    constructor <;> decide
  have hcuts : Cuts InBraces "\x7b\x7bkey + \"x\"\x7d\x7d".toList
      ⟨[([], "key + \"x\"".toList)], []⟩ :=
    .span (Text.isGap_nil _ _) hbody (.last (Text.isGap_nil _ _))
  have hcall := hall "page" 1 _ _ hcuts
  revert hcall
  decide

end BookRules.Request
