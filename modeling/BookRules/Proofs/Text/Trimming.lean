import BookRules.Text.Blank
import Mathlib.Data.List.DropRight

/-!
# Trimmed texts

Trimming takes off blanks at the two ends and nothing else: it leaves a stretch
of the text, a second time it changes nothing, and in a text that is put together
from parts it stops at the first part on either side that is not blank.

The lines of a text are its pieces between line feeds, but what follows the last line
feed has to hold something to be a line, and a carriage return in front of a line feed
is left out.  Neither is seen once the lines are trimmed and the empty ones dropped.
-/

namespace BookRules.Text

variable {cs front back : List Char}

/-- What is said of all characters of a text is decided along the text. -/
instance (priority := 2000) decidableForallMem (p : Char → Prop) [DecidablePred p]
    (cs : List Char) : Decidable (∀ c ∈ cs, p c) :=
  List.decidableBAll p cs

theorem trimStart_isSuffix (cs : List Char) : trimStart cs <:+ cs :=
  List.dropWhile_suffix isBlank

theorem trimEnd_isPrefix (cs : List Char) : trimEnd cs <+: cs :=
  List.rdropWhile_prefix isBlank cs

theorem trim_isInfix (cs : List Char) : trim cs <:+: cs :=
  (trimEnd_isPrefix (trimStart cs)).isInfix.trans (trimStart_isSuffix cs).isInfix

/-- What is taken off in front is blank. -/
theorem exists_blank_append_trimStart (cs : List Char) :
    ∃ blank : List Char, (∀ c ∈ blank, isBlank c = true) ∧ blank ++ trimStart cs = cs :=
  ⟨cs.takeWhile isBlank, fun _ hc => List.mem_takeWhile_imp hc, List.takeWhile_append_dropWhile⟩

/-- What is taken off at the end is blank. -/
theorem exists_trimEnd_append_blank (cs : List Char) :
    ∃ blank : List Char, (∀ c ∈ blank, isBlank c = true) ∧ trimEnd cs ++ blank = cs :=
  ⟨cs.rtakeWhile isBlank, fun _ hc => List.mem_rtakeWhile_imp hc,
    List.rdropWhile_append_rtakeWhile⟩

theorem trimStart_eq_nil_iff : trimStart cs = [] ↔ ∀ c ∈ cs, isBlank c = true :=
  List.dropWhile_eq_nil_iff

theorem trimEnd_eq_nil_iff : trimEnd cs = [] ↔ ∀ c ∈ cs, isBlank c = true :=
  List.rdropWhile_eq_nil_iff

theorem trimStart_append (h : trimStart front ≠ []) (back : List Char) :
    trimStart (front ++ back) = trimStart front ++ back := by
  unfold trimStart at h ⊢
  rw [List.dropWhile_append, if_neg (by simpa using h)]

theorem trimStart_blank_append (h : ∀ c ∈ front, isBlank c = true) (back : List Char) :
    trimStart (front ++ back) = trimStart back :=
  List.dropWhile_append_of_pos h

theorem trimEnd_append (h : trimEnd back ≠ []) (front : List Char) :
    trimEnd (front ++ back) = front ++ trimEnd back := by
  have hback : trimStart back.reverse ≠ [] := by
    intro hnil
    exact h (by simpa [trimEnd, trimStart] using hnil)
  have happ := trimStart_append hback front.reverse
  unfold trimStart at happ
  unfold trimEnd
  rw [List.reverse_append, happ]
  simp

theorem trimEnd_append_blank (h : ∀ c ∈ back, isBlank c = true) (front : List Char) :
    trimEnd (front ++ back) = trimEnd front := by
  have hrev : ∀ c ∈ back.reverse, isBlank c = true := by simpa using h
  have happ := trimStart_blank_append hrev front.reverse
  unfold trimStart at happ
  unfold trimEnd
  rw [List.reverse_append, happ]

theorem trimEnd_concat {c : Char} (hc : isBlank c = false) (front : List Char) :
    trimEnd (front ++ [c]) = front ++ [c] :=
  List.rdropWhile_concat_neg _ _ _ (by simp [hc])

theorem trimEnd_eq_self (h : ∀ c ∈ cs.getLast?, isBlank c = false) : trimEnd cs = cs :=
  List.rdropWhile_eq_self_iff.2 fun hne => by simp [h _ (List.getLast?_eq_getLast_of_ne_nil hne)]

theorem trimEnd_cons {c : Char} (hc : isBlank c = false) (rest : List Char) :
    trimEnd (c :: rest) = c :: trimEnd rest := by
  rw [← List.singleton_append]
  by_cases hrest : trimEnd rest = []
  · rw [trimEnd_append_blank (trimEnd_eq_nil_iff.1 hrest), hrest]
    exact trimEnd_concat hc []
  · rw [trimEnd_append hrest, List.singleton_append]

/-- A text that begins with no blank is trimmed at its end only. -/
theorem trim_cons {c : Char} (hc : isBlank c = false) (rest : List Char) :
    trim (c :: rest) = c :: trimEnd rest := by
  have hstart : trimStart (c :: rest) = c :: rest := List.dropWhile_cons_of_neg (by simp [hc])
  rw [trim, hstart, trimEnd_cons hc]

theorem trim_cons_concat {c d : Char} (hc : isBlank c = false) (hd : isBlank d = false)
    (inside : List Char) : trim (c :: inside ++ [d]) = c :: inside ++ [d] := by
  rw [List.cons_append, trim_cons hc, trimEnd_concat hd]

theorem exists_blank_append_trim_append (cs : List Char) :
    ∃ front back : List Char, (∀ c ∈ front, isBlank c = true) ∧ (∀ c ∈ back, isBlank c = true) ∧
      front ++ trim cs ++ back = cs := by
  obtain ⟨front, hfront, hcs⟩ := exists_blank_append_trimStart cs
  obtain ⟨back, hback, htrim⟩ := exists_trimEnd_append_blank (trimStart cs)
  exact ⟨front, back, hfront, hback, by rw [List.append_assoc, trim, htrim, hcs]⟩

theorem length_trim_le (cs : List Char) : (trim cs).length ≤ cs.length :=
  (trim_isInfix cs).length_le

theorem trim_blank_append (h : ∀ c ∈ front, isBlank c = true) (back : List Char) :
    trim (front ++ back) = trim back := by
  unfold trim
  rw [trimStart_blank_append h]

theorem trim_append_blank (h : ∀ c ∈ back, isBlank c = true) (front : List Char) :
    trim (front ++ back) = trim front := by
  unfold trim
  by_cases hnil : trimStart front = []
  · have hall : ∀ c ∈ front, isBlank c = true := trimStart_eq_nil_iff.1 hnil
    rw [trimStart_blank_append hall, hnil, trimStart_eq_nil_iff.2 h]
  · rw [trimStart_append hnil, trimEnd_append_blank h]

theorem trim_trimStart (cs : List Char) : trim (trimStart cs) = trim cs := by
  obtain ⟨blank, hblank, hcs⟩ := exists_blank_append_trimStart cs
  conv_rhs => rw [← hcs]
  exact (trim_blank_append hblank _).symm

theorem trim_trimEnd (cs : List Char) : trim (trimEnd cs) = trim cs := by
  obtain ⟨blank, hblank, hcs⟩ := exists_trimEnd_append_blank cs
  conv_rhs => rw [← hcs]
  exact (trim_append_blank hblank _).symm

theorem trim_trim (cs : List Char) : trim (trim cs) = trim cs := by
  calc
    trim (trim cs) = trim (trimStart cs) := trim_trimEnd (trimStart cs)
    _ = trim cs := trim_trimStart cs

theorem trimmed_trimmed (text : String) : trimmed (trimmed text) = trimmed text := by
  simp only [trimmed, String.toList_ofList, trim_trim]

theorem trim_eq_nil_iff : trim cs = [] ↔ ∀ c ∈ cs, isBlank c = true := by
  constructor
  · intro hnil c hc
    have hall : ∀ d ∈ trimStart cs, isBlank d = true := trimEnd_eq_nil_iff.1 hnil
    obtain ⟨blank, hblank, hcs⟩ := exists_blank_append_trimStart cs
    rw [← hcs, List.mem_append] at hc
    rcases hc with hc | hc
    · exact hblank c hc
    · exact hall c hc
  · intro hall
    unfold trim
    rw [trimStart_eq_nil_iff.2 hall]
    rfl

theorem trim_eq_self_of_forall (h : ∀ c ∈ cs, isBlank c = false) : trim cs = cs := by
  have hstart : trimStart cs = cs :=
    List.dropWhile_eq_self_iff.2 fun hlen => by simp [h _ (List.getElem_mem hlen)]
  have hend : trimEnd cs = cs :=
    List.rdropWhile_eq_self_iff.2 fun hne => by simp [h _ (List.getLast_mem hne)]
  rw [trim, hstart, hend]

theorem mem_trim {c : Char} (hc : c ∈ cs) (hblank : isBlank c = false) : c ∈ trim cs := by
  obtain ⟨front, hfront, hcs⟩ := exists_blank_append_trimStart cs
  obtain ⟨back, hback, htrim⟩ := exists_trimEnd_append_blank (trimStart cs)
  rw [← hcs, ← htrim, List.mem_append, List.mem_append] at hc
  rcases hc with hc | hc | hc
  · simp [hfront c hc] at hblank
  · exact hc
  · simp [hback c hc] at hblank

/-- A trimmed text has no blank in front. -/
theorem trimStart_eq_self_of_trim (h : trim cs = cs) : trimStart cs = cs := by
  have hend : (trim cs).length ≤ (trimStart cs).length :=
    (trimEnd_isPrefix (trimStart cs)).length_le
  have hstart : (trimStart cs).length ≤ cs.length := (trimStart_isSuffix cs).length_le
  rw [h] at hend
  exact (trimStart_isSuffix cs).eq_of_length (by omega)

/-- The two ends can be trimmed in either order. -/
theorem trimStart_trimEnd (cs : List Char) : trimStart (trimEnd cs) = trim cs := by
  by_cases hnil : trim cs = []
  · have hall : ∀ c ∈ cs, isBlank c = true := trim_eq_nil_iff.1 hnil
    rw [hnil, trimEnd_eq_nil_iff.2 hall]
    rfl
  · obtain ⟨blank, hblank, hcs⟩ := exists_blank_append_trimStart cs
    have hend : trimEnd cs = blank ++ trim cs := by
      conv_lhs => rw [← hcs]
      exact trimEnd_append hnil blank
    rw [hend, trimStart_blank_append hblank, trimStart_eq_self_of_trim (trim_trim cs)]

/-- A trimmed text has no blank at its end. -/
theorem trimEnd_eq_self_of_trim (h : trim cs = cs) : trimEnd cs = cs := by
  calc
    trimEnd cs = trimEnd (trimStart cs) := by rw [trimStart_eq_self_of_trim h]
    _ = cs := h

/-- A text is trimmed if it neither begins nor ends with a blank. -/
theorem trim_eq_self_iff : trim cs = cs ↔
    (∀ c ∈ cs.head?, isBlank c = false) ∧ ∀ c ∈ cs.getLast?, isBlank c = false := by
  constructor
  · intro h
    refine ⟨fun c hc => ?_, fun c hc => ?_⟩
    · obtain ⟨rest, rfl⟩ : ∃ rest, cs = c :: rest := ⟨_, List.eq_cons_of_mem_head? hc⟩
      have hstart := List.dropWhile_eq_self_iff.1 (trimStart_eq_self_of_trim h)
      exact Bool.not_eq_true _ ▸ hstart (by simp)
    · obtain ⟨hne, rfl⟩ := List.mem_getLast?_eq_getLast hc
      have hend := List.rdropWhile_eq_self_iff.1 (trimEnd_eq_self_of_trim h)
      simpa using hend hne
  · rintro ⟨hhead, hlast⟩
    cases cs with
    | nil => rfl
    | cons c rest =>
        have hstart : trimStart (c :: rest) = c :: rest :=
          List.dropWhile_cons_of_neg (by simp [hhead c rfl])
        rw [trim, hstart, trimEnd_eq_self hlast]

/-- In front of a trimmed text only blanks at the start are taken off. -/
theorem trim_append (h : trim back = back) (hne : back ≠ []) (front : List Char) :
    trim (front ++ back) = trimStart front ++ back := by
  have hstart : trimStart (front ++ back) = trimStart front ++ back := by
    by_cases hnil : trimStart front = []
    · rw [trimStart_blank_append (trimStart_eq_nil_iff.1 hnil), trimStart_eq_self_of_trim h, hnil,
        List.nil_append]
    · exact trimStart_append hnil back
  have hend : trimEnd back = back := trimEnd_eq_self_of_trim h
  rw [trim, hstart, trimEnd_append (hend.symm ▸ hne), hend]

/-- Trimming two texts with something between them trims the outer ends. -/
theorem trim_append_append {a b : List Char} (ha : trim a ≠ []) (hb : trim b ≠ [])
    (between : List Char) :
    trim (a ++ between ++ b) = trimStart a ++ between ++ trimEnd b := by
  have hstart : trimStart a ≠ [] := by
    intro hnil
    exact ha (trim_eq_nil_iff.2 (trimStart_eq_nil_iff.1 hnil))
  have hend : trimEnd b ≠ [] := by
    intro hnil
    exact hb (trim_eq_nil_iff.2 (trimEnd_eq_nil_iff.1 hnil))
  unfold trim
  rw [List.append_assoc, trimStart_append hstart, ← List.append_assoc, trimEnd_append hend]

/-- A joined text ends like the last of its parts. -/
theorem trimEnd_intercalate (between : List Char) {parts : List (List Char)}
    (hparts : ∀ part ∈ parts, trimEnd part = part ∧ part ≠ []) :
    trimEnd (between.intercalate parts) = between.intercalate parts ∧
      (parts ≠ [] → between.intercalate parts ≠ []) := by
  induction parts with
  | nil => exact ⟨rfl, fun h => absurd rfl h⟩
  | cons part rest ih =>
      have hpart := hparts part (by simp)
      cases rest with
      | nil =>
          rw [List.intercalate_singleton]
          exact ⟨hpart.1, fun _ => hpart.2⟩
      | cons next rest =>
          have hrest := ih (fun p hp => hparts p (List.mem_cons_of_mem part hp))
          have hne : trimEnd (between.intercalate (next :: rest)) ≠ [] := by
            rw [hrest.1]
            exact hrest.2 (by simp)
          rw [List.intercalate_cons_cons]
          refine ⟨?_, fun _ => by simp [hpart.2]⟩
          rw [trimEnd_append hne, hrest.1]

/-- A joined text begins like the first of its parts. -/
theorem trimStart_intercalate (between : List Char) {parts : List (List Char)}
    (hparts : ∀ part ∈ parts, trimStart part = part ∧ part ≠ []) :
    trimStart (between.intercalate parts) = between.intercalate parts := by
  cases parts with
  | nil => rfl
  | cons part rest =>
      have hpart := hparts part (by simp)
      cases rest with
      | nil => simpa using hpart.1
      | cons next rest =>
          have hne : trimStart part ≠ [] := by
            rw [hpart.1]
            exact hpart.2
          rw [List.intercalate_cons_cons, List.append_assoc, trimStart_append hne, hpart.1]

/-- Trimmed texts that are joined are trimmed as a whole. -/
theorem trim_intercalate (between : List Char) {parts : List (List Char)}
    (hparts : ∀ part ∈ parts, trim part = part ∧ part ≠ []) :
    trim (between.intercalate parts) = between.intercalate parts := by
  unfold trim
  rw [trimStart_intercalate between fun part hpart =>
      ⟨trimStart_eq_self_of_trim (hparts part hpart).1, (hparts part hpart).2⟩]
  exact (trimEnd_intercalate between fun part hpart =>
    ⟨trimEnd_eq_self_of_trim (hparts part hpart).1, (hparts part hpart).2⟩).1

/-! ## Lines -/

/-- A carriage return is white space. -/
theorem trim_dropReturn (cs : List Char) : trim (dropReturn cs) = trim cs := by
  unfold dropReturn
  split
  next hlast =>
    have hreturn : ∀ c ∈ ['\r'], isBlank c = true := by decide
    conv_rhs => rw [← List.dropLast_append_getLast? '\r' hlast]
    exact (trim_append_blank hreturn cs.dropLast).symm
  next => rfl

theorem dropReturn_eq_self (h : cs.getLast? ≠ some '\r') : dropReturn cs = cs :=
  if_neg h

theorem lines_eq (cs : List Char) : ∃ front last, cs.splitOn '\n' = front ++ [last] ∧
    lines cs = front.map dropReturn ++ if last.isEmpty then [] else [last] := by
  have hne : cs.splitOn '\n' ≠ [] := List.splitOn_ne_nil '\n' cs
  refine ⟨_, _, (List.dropLast_concat_getLast hne).symm, ?_⟩
  rw [lines, ← List.splitOn_eq_splitOnP, List.getLast?_eq_getLast_of_ne_nil hne]
  rfl

/-- White space off and empty lines out, the lines of a text are its pieces between line
feeds. -/
theorem filter_trim_lines (cs : List Char) :
    ((lines cs).map trim).filter (fun line => !line.isEmpty) =
      ((cs.splitOn '\n').map trim).filter (fun line => !line.isEmpty) := by
  obtain ⟨front, last, hpieces, hlines⟩ := lines_eq cs
  have hfront : (front.map dropReturn).map trim = front.map trim := by
    rw [List.map_map]
    exact List.map_congr_left fun line _ => trim_dropReturn line
  rw [hlines, hpieces, List.map_append, List.map_append, hfront, List.filter_append,
    List.filter_append]
  cases last <;> rfl

/-- Lines that a line feed stands between are read back. -/
theorem lines_intercalate {parts : List (List Char)} (hne : ∀ line ∈ parts, line ≠ [])
    (hfeed : ∀ line ∈ parts, '\n' ∉ line)
    (hreturn : ∀ line ∈ parts, line.getLast? ≠ some '\r') :
    lines (['\n'].intercalate parts) = parts := by
  by_cases hnone : parts = []
  · rw [hnone]
    rfl
  · obtain ⟨front, last, hpieces, hlines⟩ := lines_eq (['\n'].intercalate parts)
    have hparts : parts = front ++ [last] := by
      rw [← hpieces]
      exact (List.splitOn_intercalate '\n' hfeed hnone).symm
    have hlast : last ≠ [] := hne last (by simp [hparts])
    have hfront : front.map dropReturn = front := by
      have hself : ∀ line ∈ front, dropReturn line = id line :=
        fun line hline => dropReturn_eq_self (hreturn line (by simp [hparts, hline]))
      rw [List.map_congr_left hself, List.map_id]
    rw [hlines, hfront, if_neg (by simpa using hlast), hparts]

end BookRules.Text
