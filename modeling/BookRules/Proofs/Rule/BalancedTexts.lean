import BookRules.Proofs.Rule.Balancing
import BookRules.Proofs.Text.Bytes

/-!
# Balanced texts

The grammar of the texts that a search for the closing brace passes over.  Between braces
stand plain characters, escapes, quoted texts, runs in square brackets and balanced texts
again; inside a run the braces stand freely.  Every item leaves the open brackets as they
were, wherever it stands, so the search that starts at the first brace of a balanced text
ends at its last one, whatever stands around it.

What the search answers is the end of a front of the text that is closed by a brace, and
it depends on that front only.
-/

namespace BookRules.Rule

/-! ## The grammar -/

/-- Characters up to a quote that no backslash precedes. -/
inductive Quotable (quote : Char) : List Char → Prop
  | nil : Quotable quote []
  | plain {c : Char} {cs : List Char} (hquote : c ≠ quote) (hescape : c ≠ '\\')
      (hmore : Quotable quote cs) : Quotable quote (c :: cs)
  | escape {c : Char} {cs : List Char} (hmore : Quotable quote cs) :
      Quotable quote ('\\' :: c :: cs)

/-- The brackets directly around an item. -/
inductive Surrounding
  | braces
  | run

/-- A character that means itself. -/
def Surrounding.IsPlain : Surrounding → Char → Prop
  | .braces, c => c ∉ ['\x7b', '\x7d', '[', '\'', '"', '\\']
  | .run, c => c ∉ ['[', ']', '\'', '"', '\\']

instance Surrounding.decidableIsPlain (place : Surrounding) (c : Char) :
    Decidable (place.IsPlain c) :=
  match place with
  | .braces => inferInstanceAs (Decidable (c ∉ ['\x7b', '\x7d', '[', '\'', '"', '\\']))
  | .run => inferInstanceAs (Decidable (c ∉ ['[', ']', '\'', '"', '\\']))

/-- Items one behind the other. -/
inductive Items : Surrounding → List Char → Prop
  | nil {place : Surrounding} : Items place []
  | plain {place : Surrounding} {c : Char} {cs : List Char} (hplain : place.IsPlain c)
      (hmore : Items place cs) : Items place (c :: cs)
  | escape {place : Surrounding} {c : Char} {cs : List Char} (hmore : Items place cs) :
      Items place ('\\' :: c :: cs)
  | quoted {place : Surrounding} {quote : Char} {inside cs : List Char}
      (hquote : isQuote quote = true) (hinside : Quotable quote inside)
      (hmore : Items place cs) : Items place (quote :: inside ++ quote :: cs)
  | run {place : Surrounding} {inside cs : List Char} (hinside : Items .run inside)
      (hmore : Items place cs) : Items place ('[' :: inside ++ ']' :: cs)
  | balanced {inside cs : List Char} (hinside : Items .braces inside)
      (hmore : Items .braces cs) : Items .braces ('\x7b' :: inside ++ '\x7d' :: cs)

/-- Items between two braces. -/
def IsBalanced (cs : List Char) : Prop :=
  ∃ inside, Items .braces inside ∧ cs = '\x7b' :: inside ++ ['\x7d']

/-! ## Passing over items -/

theorem quoted?_of_quotable {quote : Char} {inside : List Char} (hquote : isQuote quote = true)
    (h : Quotable quote inside) (rest : List Char) :
    quoted? .script quote (inside ++ quote :: rest) = some (inside ++ [quote], rest) := by
  have hescape : quote ≠ '\\' := by
    rintro rfl
    simp [isQuote] at hquote
  induction h with
  | nil => cases rest <;> simp [quoted?, hescape]
  | @plain c cs hc hback _ ih =>
      obtain ⟨d, more, hcons⟩ := List.exists_cons_of_ne_nil
        (List.append_ne_nil_of_right_ne_nil cs (List.cons_ne_nil quote rest))
      rw [hcons] at ih
      rw [List.cons_append, hcons]
      simp [quoted?, hc, hback, ih]
  | @escape c cs _ ih =>
      simp [quoted?, ih]

/-- The open brackets at a place between items. -/
def Surrounding.Holds : Surrounding → Nat → Nat → Prop
  | .braces, depth, square => 0 < depth ∧ square = 0
  | .run, _, square => 0 < square

section Passing

variable {place : Surrounding} {depth square : Nat} {c : Char} {cs : List Char}

theorem Surrounding.IsPlain.not_isQuote (h : place.IsPlain c) : isQuote c = false := by
  cases place <;> simp_all [IsPlain, isQuote]

theorem Surrounding.IsPlain.ne_escape (h : place.IsPlain c) : c ≠ '\\' := by
  cases place <;> simp_all [IsPlain]

theorem Surrounding.IsPlain.turn_eq (h : place.IsPlain c) (hplace : place.Holds depth square) :
    turn .script '\x7b' '\x7d' depth square c = some (depth, square) := by
  cases place with
  | braces =>
      obtain ⟨hdepth, rfl⟩ := hplace
      simp only [IsPlain, List.mem_cons, List.not_mem_nil, or_false, not_or] at h
      by_cases hclose : c = ']' <;> simp [turn, h, hclose]
  | run =>
      have hsquare : square ≠ 0 := Nat.pos_iff_ne_zero.1 hplace
      simp only [IsPlain, List.mem_cons, List.not_mem_nil, or_false, not_or] at h
      simp [turn, h, hsquare]

/-- Items leave the open brackets as they are. -/
theorem Items.afterBalanced?_append (h : Items place cs) (hplace : place.Holds depth square)
    (rest : List Char) :
    afterBalanced? .script '\x7b' '\x7d' depth square (cs ++ rest) =
      afterBalanced? .script '\x7b' '\x7d' depth square rest := by
  induction h generalizing depth square rest with
  | nil => rfl
  | plain hplain _ ih =>
      rw [List.cons_append, afterBalanced?_turn hplain.ne_escape
        (span?_of_not_isQuote hplain.not_isQuote) (hplain.turn_eq hplace)]
      exact ih hplace rest
  | escape _ ih =>
      rw [List.cons_append, List.cons_append, afterBalanced?_escape]
      exact ih hplace rest
  | @quoted _ quote inside cs hquote hinside _ ih =>
      have hspan : span? .script quote (inside ++ quote :: (cs ++ rest)) =
          some (inside ++ [quote], cs ++ rest) := by
        simp only [span?, hquote, if_true, quoted?_of_quotable hquote hinside]
      rw [List.cons_append, List.cons_append, List.append_assoc, List.cons_append,
        afterBalanced?_span hspan]
      exact ih hplace rest
  | @run place inside cs _ _ ihInside ih =>
      have hopen : turn .script '\x7b' '\x7d' depth square '[' = some (depth, square + 1) := rfl
      have hclose : turn .script '\x7b' '\x7d' depth (square + 1) ']' = some (depth, square) :=
        rfl
      have hinside : Surrounding.run.Holds depth (square + 1) := Nat.succ_pos square
      rw [List.cons_append, List.cons_append, List.append_assoc, List.cons_append,
        afterBalanced?_turn (by decide) (span?_of_not_isQuote rfl) hopen, ihInside hinside,
        afterBalanced?_turn (by decide) (span?_of_not_isQuote rfl) hclose]
      exact ih hplace rest
  | @balanced inside cs _ _ ihInside ih =>
      obtain ⟨hdepth, rfl⟩ := hplace
      have hopen : turn .script '\x7b' '\x7d' depth 0 '\x7b' = some (depth + 1, 0) := rfl
      have hclose : turn .script '\x7b' '\x7d' (depth + 1) 0 '\x7d' = some (depth, 0) := by
        simp [turn]
        omega
      have hinside : Surrounding.braces.Holds (depth + 1) 0 := ⟨Nat.succ_pos depth, rfl⟩
      rw [List.cons_append, List.cons_append, List.append_assoc, List.cons_append,
        afterBalanced?_turn (by decide) (span?_of_not_isQuote rfl) hopen, ihInside hinside,
        afterBalanced?_turn (by decide) (span?_of_not_isQuote rfl) hclose]
      exact ih ⟨hdepth, rfl⟩ rest

theorem IsBalanced.afterBalanced?_append (h : IsBalanced cs) (rest : List Char) :
    afterBalanced? .script '\x7b' '\x7d' 0 0 (cs ++ rest) = some rest := by
  obtain ⟨inside, hinside, rfl⟩ := h
  have hopen : turn .script '\x7b' '\x7d' 0 0 '\x7b' = some (1, 0) := rfl
  have hclose : turn .script '\x7b' '\x7d' 1 0 '\x7d' = none := rfl
  have hholds : Surrounding.braces.Holds 1 0 := ⟨Nat.one_pos, rfl⟩
  rw [List.append_assoc, List.cons_append, List.singleton_append,
    afterBalanced?_turn (by decide) (span?_of_not_isQuote rfl) hopen,
    hinside.afterBalanced?_append hholds,
    afterBalanced?_close (by decide) (span?_of_not_isQuote rfl) hclose]

end Passing

/-! ## Byte offsets -/

section Offsets

variable {text : String} {start stop : Nat} {opening closing : Char} {dialect : Dialect}
  {front cs : List Char}

/-- The search from a place between two characters. -/
theorem findBalanced_eq (htext : front ++ cs = text.toList) :
    findBalanced text (Text.byteCount front) opening closing dialect =
      (afterBalanced? dialect opening closing 0 0 cs).map fun after =>
        Text.byteCount text.toList - Text.byteCount after := by
  simp only [findBalanced, ← htext, Text.dropBytes_append]

theorem findBalanced_eq_some {span after : List Char} (htext : front ++ span ++ after = text.toList)
    (h : afterBalanced? dialect opening closing 0 0 (span ++ after) = some after) :
    findBalanced text (Text.byteCount front) opening closing dialect =
      some (Text.byteCount (front ++ span)) := by
  rw [List.append_assoc] at htext
  rw [findBalanced_eq htext, h, Option.map_some, ← htext]
  simp only [Text.byteCount_append, Option.some.injEq]
  omega

/-- An answer is the end of a front of the text; the search is the same in every text that
goes on with a front of the rest. -/
theorem exists_of_findBalanced? (h : findBalanced text start opening closing dialect = some stop) :
    ∃ before after, before ++ closing :: after = text.toList ∧
      Text.byteCount (before ++ [closing]) = stop ∧
      findBalanced (String.ofList (before ++ [closing])) start opening closing dialect =
        some stop := by
  obtain ⟨after, hafter, rfl⟩ := Option.map_eq_some_iff.1 h
  obtain ⟨front, htext, hdrop⟩ := Text.exists_append_dropBytes start text.toList
  obtain ⟨body, hbody, -, hcut⟩ := exists_of_afterBalanced? hafter
  have hne : Text.dropBytes start text.toList ≠ [] := by
    rw [← hbody]
    simp
  have hstop : Text.byteCount text.toList - Text.byteCount after =
      Text.byteCount (front ++ body ++ [closing]) := by
    rw [← htext, ← hbody]
    simp only [Text.byteCount_append, Text.byteCount_cons, Text.byteCount_nil]
    omega
  refine ⟨front ++ body, after, by rw [← htext, ← hbody, List.append_assoc], hstop.symm, ?_⟩
  have hshort := hcut [] List.nil_prefix
  unfold findBalanced
  simp only [String.toList_ofList]
  rw [List.append_assoc, hdrop hne, hshort, hstop, List.append_assoc]
  simp

end Offsets

/-- From the first brace of a balanced text the search ends just past its last one, whatever
stands around the text; and an answer is always just past a closing brace, a place between two
characters, and the same when the text ends there. -/
theorem findBalanced_balanced (front w back text : String) (start : Nat) :
    (IsBalanced w.toList →
      findBalanced (front ++ w ++ back) front.utf8ByteSize '\x7b' '\x7d' .script =
        some (front ++ w).utf8ByteSize) ∧
    ∀ stop, findBalanced text start '\x7b' '\x7d' .script = some stop →
      ∃ before after : String, before ++ "\x7d" ++ after = text ∧
        (before ++ "\x7d").utf8ByteSize = stop ∧
        findBalanced (before ++ "\x7d") start '\x7b' '\x7d' .script = some stop := by
  constructor
  · intro hw
    have htext : front.toList ++ w.toList ++ back.toList = (front ++ w ++ back).toList := by
      simp
    rw [← Text.byteCount_toList front,
      findBalanced_eq_some htext (hw.afterBalanced?_append back.toList)]
    simp
  · intro stop h
    obtain ⟨before, after, htext, hstop, hcut⟩ := exists_of_findBalanced? h
    have hbrace : String.ofList (before ++ ['\x7d']) = String.ofList before ++ "\x7d" := by
      rw [String.ofList_append]
    refine ⟨String.ofList before, String.ofList after, ?_, ?_, ?_⟩
    · apply String.ext
      simp [← htext]
    · rw [← hbrace, ← Text.byteCount_toList, String.toList_ofList, hstop]
    · rw [← hbrace, hcut]

/-- Braces behind a backslash, in a quoted text and in square brackets, and a lone quote and a
brace around the text. -/
theorem findBalanced_balanced_hidden :
    let w := "\x7b書\\\x7d'\x7d\\''[\x7d]\x7b]\x7d\x7d"
    IsBalanced w.toList ∧
      findBalanced ("é'" ++ w ++ "'\x7d") 3 '\x7b' '\x7d' .script = some 21 ∧
      ∃ before after : String, before ++ "\x7d" ++ after = "é'" ++ w ++ "'\x7d" ∧
        (before ++ "\x7d").utf8ByteSize = 21 ∧
        findBalanced (before ++ "\x7d") 3 '\x7b' '\x7d' .script = some 21 := by
  intro w
  have hw : IsBalanced w.toList := by
    refine ⟨['書', '\\', '\x7d', '\'', '\x7d', '\\', '\'', '\'', '[', '\x7d', ']', '\x7b', ']',
      '\x7d'], ?_, by decide⟩
    have hquoted : Quotable '\'' ['\x7d', '\\', '\''] :=
      .plain (by decide) (by decide) (.escape .nil)
    have hrun : Items .run ['\x7d'] := .plain (by decide) .nil
    have hinner : Items .braces [']'] := .plain (by decide) .nil
    exact .plain (by decide) (.escape (.quoted rfl hquoted (.run hrun (.balanced hinner .nil))))
  have hsize : ("é'" : String).utf8ByteSize = 3 ∧ ("é'" ++ w).utf8ByteSize = 21 := by decide
  have hfound := (findBalanced_balanced "é'" w "'\x7d" ("é'" ++ w ++ "'\x7d") 3).1 hw
  rw [hsize.1, hsize.2] at hfound
  exact ⟨hw, hfound,
    (findBalanced_balanced "é'" w "'\x7d" ("é'" ++ w ++ "'\x7d") 3).2 21 hfound⟩

end BookRules.Rule
