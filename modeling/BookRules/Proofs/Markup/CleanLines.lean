import BookRules.Proofs.Markup.References
import BookRules.Proofs.Text.Trimming
import BookRules.Proofs.Unicode.LetterCase

/-!
# Clean lines

Whatever the tags and the references of a chapter leave behind, its text is cut into lines
last, so each line of it holds something and neither begins nor ends with white space, also
where the white space came out of a reference or a tag.  The lines are read back from the text,
as a line that is trimmed keeps no carriage return in front of its line feed.

Scripts, styles, comments and tags open with a bracket.  Where all brackets and ampersands of a
text are escaped, or there are none, the lines are therefore those of the text itself, and a
text of clean lines stays as it is.
-/

namespace BookRules.Markup.Paragraphs

/-- A line that holds something, without white space around it. -/
structure IsClean (line : List Char) : Prop where
  ne_nil : line ≠ []
  head_not_blank : ∀ c ∈ line.head?, Text.isBlank c = false
  last_not_blank : ∀ c ∈ line.getLast?, Text.isBlank c = false
  unbroken : '\n' ∉ line

variable {cs line text special : List Char} {lines : List (List Char)} {markup : String} {c : Char}

/-! ## Lines that are trimmed -/

theorem IsClean.trim_eq (h : IsClean line) : Text.trim line = line :=
  Text.trim_eq_self_iff.2 ⟨h.head_not_blank, h.last_not_blank⟩

theorem cleanLines_eq (cs : List Char) :
    cleanLines cs = ((cs.splitOn '\n').map Text.trim).filter fun line => !line.isEmpty :=
  Text.filter_trim_lines cs

theorem exists_of_mem_cleanLines (h : line ∈ cleanLines cs) :
    line ≠ [] ∧ ∃ piece ∈ cs.splitOn '\n', line = Text.trim piece := by
  rw [cleanLines_eq, List.mem_filter] at h
  obtain ⟨hpiece, hsome⟩ := h
  obtain ⟨piece, hmem, rfl⟩ := List.mem_map.1 hpiece
  exact ⟨by simpa using hsome, piece, hmem, rfl⟩

theorem isClean_of_mem_cleanLines (h : line ∈ cleanLines cs) : IsClean line := by
  obtain ⟨hne, piece, hpiece, rfl⟩ := exists_of_mem_cleanLines h
  have htrim := Text.trim_eq_self_iff.1 (Text.trim_trim piece)
  exact ⟨hne, htrim.1, htrim.2, fun hfeed =>
    Text.not_mem_of_mem_splitOn hpiece ((Text.trim_isInfix piece).mem hfeed)⟩

theorem mem_of_mem_cleanLines (h : line ∈ cleanLines cs) (hc : c ∈ line) : c ∈ cs := by
  obtain ⟨-, piece, hpiece, rfl⟩ := exists_of_mem_cleanLines h
  exact Text.mem_of_mem_splitOn hpiece ((Text.trim_isInfix piece).mem hc)

/-- Clean lines that are joined are clean lines when they are cut again. -/
theorem cleanLines_joinWith (h : ∀ line ∈ lines, IsClean line) :
    cleanLines (Text.joinWith ['\n'] lines) = lines := by
  by_cases hnone : lines = []
  · rw [hnone]
    rfl
  · have hcut : (Text.joinWith ['\n'] lines).splitOn '\n' = lines :=
      List.splitOn_intercalate '\n' (fun line hline => (h line hline).unbroken) hnone
    have htrim : ∀ line ∈ lines, Text.trim line = id line :=
      fun line hline => (h line hline).trim_eq
    rw [cleanLines_eq, hcut, List.map_congr_left htrim, List.map_id, List.filter_eq_self]
    exact fun line hline => by simpa using (h line hline).ne_nil

theorem lines_joinWith (h : ∀ line ∈ lines, IsClean line) :
    Text.lines (Text.joinWith ['\n'] lines) = lines := by
  refine Text.lines_intercalate (fun line hline => (h line hline).ne_nil)
    (fun line hline => (h line hline).unbroken) fun line hline hreturn => ?_
  have hblank := (h line hline).last_not_blank '\r' hreturn
  exact absurd hblank (by decide)

theorem trim_joinWith (h : ∀ line ∈ lines, IsClean line) :
    Text.trim (Text.joinWith ['\n'] lines) = Text.joinWith ['\n'] lines :=
  Text.trim_intercalate ['\n'] fun line hline => ⟨(h line hline).trim_eq, (h line hline).ne_nil⟩

/-! ## Spans that open with a bracket -/

/-- What is read begins with an opening bracket. -/
def OpensTag (span? : List Char → Option (List Char)) : Prop :=
  ∀ cs after, span? cs = some after → cs.head? = some '<'

theorem OpensTag.replaceSpans_eq {span? : List Char → Option (List Char)} (h : OpensTag span?)
    (hcs : '<' ∉ cs) (out : List Char) : replaceSpans span? out cs = cs := by
  refine Text.replaceSpans_eq_self fun tail htail => ?_
  rw [Option.map_eq_none_iff, Option.eq_none_iff_forall_ne_some]
  intro after hafter
  exact hcs (htail.subset (List.mem_of_mem_head? (h tail after hafter)))

theorem OpensTag.bind {span? : List Char → Option (List Char)} (h : OpensTag span?)
    (next : List Char → Option (List Char)) : OpensTag fun cs => (span? cs).bind next := by
  intro cs after hbind
  obtain ⟨rest, hspan, -⟩ := Option.bind_eq_some_iff.1 hbind
  exact h cs rest hspan

theorem OpensTag.or {span? other? : List Char → Option (List Char)} (h : OpensTag span?)
    (hother : OpensTag other?) : OpensTag fun cs => (span? cs).or (other? cs) := by
  intro cs after hor
  rcases Option.or_eq_some_iff.1 hor with hspan | ⟨-, hspan⟩
  · exact h cs after hspan
  · exact hother cs after hspan

theorem opensTag_stripFront? {word : List Char} (hword : word.head? = some '<') :
    OpensTag (Text.stripFront? word) := by
  intro cs after h
  obtain ⟨rest, rfl⟩ : ∃ rest, word = '<' :: rest := ⟨_, List.eq_cons_of_mem_head? hword⟩
  obtain rfl := Text.append_of_stripFront? h
  rfl

/-- No other sign is taken for a bracket, whatever the letter case. -/
theorem opensTag_afterFolded? {word : List Char} (hword : word.head? = some '<') :
    OpensTag (Unicode.afterFolded? word) := by
  intro cs after h
  obtain ⟨rest, rfl⟩ : ∃ rest, word = '<' :: rest := ⟨_, List.eq_cons_of_mem_head? hword⟩
  cases cs with
  | nil => simp [Unicode.afterFolded?] at h
  | cons c cs =>
      rw [Unicode.afterFolded?] at h
      split at h
      next hfold =>
        have hform : c ∈ ['<', '<'] := (Unicode.fold_eq_iff (by decide)).1 hfold
        simpa using hform
      next => simp at h

theorem opensTag_afterElement? {opening : String} (hopening : opening.toList.head? = some '<')
    (closing : String) : OpensTag (afterElement? opening closing) :=
  ((opensTag_afterFolded? hopening).bind afterTag?).bind (afterWord? closing.toList)

theorem opensTag_hidden? : OpensTag hidden? :=
  (opensTag_afterElement? rfl "</script>").or <|
    (opensTag_afterElement? rfl "</style>").or <| (opensTag_stripFront? rfl).bind _

theorem opensTag_paragraphTag? : OpensTag paragraphTag? := by
  intro cs after h
  unfold paragraphTag? at h
  split at h
  next => rfl
  next => simp at h

theorem opensTag_lineTag? : OpensTag lineTag? :=
  ((opensTag_afterFolded? rfl).bind _).or <|
    opensTag_paragraphTag?.or (opensTag_afterFolded? rfl)

theorem opensTag_tag? : OpensTag tag? := by
  intro cs after h
  unfold tag? at h
  split at h
  next => rfl
  next => simp at h

/-! ## Texts without markup -/

theorem bracket_not_mem_of_escapes {markup : List Char} (hspecial : '<' ∈ special)
    (h : Escapes special text markup) : '<' ∉ markup := by
  induction h with
  | nil => exact List.not_mem_nil
  | reference hname _ ih =>
      rw [List.mem_append, not_or]
      refine ⟨?_, ih⟩
      cases hname <;> decide
  | plain hc _ ih =>
      rw [List.mem_cons, not_or]
      exact ⟨fun heq => hc (heq ▸ hspecial), ih⟩

theorem escapes_self (h : ∀ c ∈ special, c ∉ cs) : Escapes special cs cs := by
  induction cs with
  | nil => exact .nil
  | cons c cs ih =>
      exact .plain (fun hc => h c hc List.mem_cons_self)
        (ih fun d hd hmem => h d hd (List.mem_cons_of_mem c hmem))

/-- Escaped text comes out as it was. -/
theorem textOf_of_escapes {markup : List Char} (h : Escapes ['<', '&'] text markup) :
    textOf markup = text := by
  have hfree : '<' ∉ markup := bracket_not_mem_of_escapes (by decide) h
  rw [textOf, opensTag_hidden?.replaceSpans_eq hfree, opensTag_lineTag?.replaceSpans_eq hfree,
    opensTag_tag?.replaceSpans_eq hfree]
  exact (h.decodes (by decide)).decode_eq

theorem format_of_escapes (h : Escapes ['<', '&'] text markup.toList) :
    format markup = String.ofList (Text.joinWith ['\n'] (cleanLines text)) := by
  rw [format, textOf_of_escapes h]

theorem format_joinWith (h : ∀ line ∈ lines, IsClean line)
    (hfree : ∀ line ∈ lines, '<' ∉ line ∧ '&' ∉ line) :
    format (String.ofList (Text.joinWith ['\n'] lines)) =
      String.ofList (Text.joinWith ['\n'] lines) := by
  have hsame : Escapes ['<', '&'] (Text.joinWith ['\n'] lines)
      (String.ofList (Text.joinWith ['\n'] lines)).toList := by
    rw [String.toList_ofList]
    refine escapes_self fun c hc hmem => ?_
    rcases Text.mem_of_mem_intercalate hmem with hfeed | ⟨line, hline, hmem⟩
    · obtain rfl := List.mem_singleton.1 hfeed
      exact absurd hc (by decide)
    · simp only [List.mem_cons, List.not_mem_nil, or_false] at hc
      rcases hc with rfl | rfl
      · exact (hfree line hline).1 hmem
      · exact (hfree line hline).2 hmem
  rw [format_of_escapes hsame, cleanLines_joinWith h]

/-- The text of a chapter is made of clean lines, which are read back from it, and neither begins
nor ends with white space.  Without a bracket and an ampersand in the markup they are the lines
of the markup, trimmed and without the blank ones, and stay as they are when they are formatted
again. -/
theorem format_clean (markup : String) :
    ∃ lines : List (List Char),
      (format markup).toList = Text.joinWith ['\n'] lines ∧
      (∀ line ∈ lines, IsClean line) ∧
      Text.lines (format markup).toList = lines ∧
      (∀ c ∈ (format markup).toList.head?, Text.isBlank c = false) ∧
      (∀ c ∈ (format markup).toList.getLast?, Text.isBlank c = false) ∧
      ('<' ∉ markup.toList → '&' ∉ markup.toList →
        lines = ((Text.lines markup.toList).map Text.trim).filter (fun line => !line.isEmpty) ∧
        lines = ((markup.toList.splitOn '\n').map Text.trim).filter (fun line => !line.isEmpty) ∧
        format (format markup) = format markup) := by
  have hclean : ∀ line ∈ cleanLines (textOf markup.toList), IsClean line :=
    fun line hline => isClean_of_mem_cleanLines hline
  have hout : (format markup).toList =
      Text.joinWith ['\n'] (cleanLines (textOf markup.toList)) := String.toList_ofList
  have hends := Text.trim_eq_self_iff.1 (trim_joinWith hclean)
  refine ⟨cleanLines (textOf markup.toList), hout, hclean, ?_, ?_, ?_,
    fun hbracket hampersand => ?_⟩
  · rw [hout, lines_joinWith hclean]
  · rw [hout]
    exact hends.1
  · rw [hout]
    exact hends.2
  · have hfree : ∀ c ∈ ['<', '&'], c ∉ markup.toList := by simp [hbracket, hampersand]
    have htext : textOf markup.toList = markup.toList := textOf_of_escapes (escapes_self hfree)
    rw [htext] at hclean
    have hformat : format markup =
        String.ofList (Text.joinWith ['\n'] (cleanLines markup.toList)) :=
      format_of_escapes (escapes_self hfree)
    refine ⟨by rw [htext]; rfl, by rw [htext, cleanLines_eq], ?_⟩
    rw [hformat]
    exact format_joinWith hclean fun line hline =>
      ⟨fun hmem => hbracket (mem_of_mem_cleanLines hline hmem),
        fun hmem => hampersand (mem_of_mem_cleanLines hline hmem)⟩

/-- Carriage returns, a line of wide spaces and signs that open no tag. -/
theorem format_clean_carriage_returns :
    let markup := " A\r\n\u3000\r\n\t> \"B\"\r"
    '<' ∉ markup.toList ∧ '&' ∉ markup.toList ∧
      (format markup).toList = "A\n> \"B\"".toList ∧ format (format markup) = format markup := by
  intro markup
  have hbracket : '<' ∉ markup.toList := by decide
  have hampersand : '&' ∉ markup.toList := by decide
  obtain ⟨lines, hout, -, -, -, -, hplain⟩ := format_clean markup
  obtain ⟨hlines, -, hagain⟩ := hplain hbracket hampersand
  refine ⟨hbracket, hampersand, ?_, hagain⟩
  rw [hout, hlines]
  decide

end BookRules.Markup.Paragraphs
