import BookRules.Proofs.Decimal.Literals
import BookRules.Proofs.Select.Slices
import BookRules.Proofs.Text.Occurrences
import BookRules.Proofs.Text.Trimming
import Mathlib.Data.List.Forall2

/-!
# Filters in brackets

The text in brackets is a filter if it follows a small grammar: an exclamation mark that may
be missing, and parts between commas, each of them a number or two or three numbers between
colons, where numbers may be missing.  The reader accepts this grammar and nothing else, so
a filter that is written by the grammar is read back, and the selector in front of the
brackets is cut off where they open.
-/

namespace BookRules.Select

open BookRules.Decimal (IsLiteral isDigit)
open BookRules.Word (inSigned64)

variable {cs part : List Char} {entry : IndexEntry} {entries : List IndexEntry}
  {filter : IndexFilter}

/-! ## Parts of a text -/

theorem mapM_eq_some_iff {α β : Type} {f : α → Option β} {xs : List α} {ys : List β} :
    xs.mapM f = some ys ↔ List.Forall₂ (fun x y => f x = some y) xs ys := by
  induction xs generalizing ys with
  | nil => cases ys <;> simp
  | cons x xs ih =>
      simp only [List.mapM_cons, Option.bind_eq_bind, Option.bind_eq_some_iff, Option.pure_def,
        Option.some.injEq]
      constructor
      · rintro ⟨y, hy, rest, hrest, rfl⟩
        exact .cons hy (ih.1 hrest)
      · intro h
        cases h with
        | cons hy hrest => exact ⟨_, hy, _, ih.2 hrest, rfl⟩

theorem forall_left_of_forall₂ {α β : Type} {R : α → β → Prop} {p : α → Prop} {xs : List α}
    {ys : List β} (h : List.Forall₂ R xs ys) (hp : ∀ x y, R x y → p x) : ∀ x ∈ xs, p x :=
  ((List.forall₂_and_left _ _).1 (h.imp fun x y hxy => ⟨hp x y hxy, hxy⟩)).1

/-- A part between separators, without its blanks, is made of characters of the text. -/
theorem mem_of_mem_trim_splitOn {sep c : Char} (hpart : part ∈ (cs.splitOn sep).map Text.trim)
    (hc : c ∈ part) : c ∈ cs := by
  obtain ⟨gap, hgap, rfl⟩ := List.mem_map.1 hpart
  exact Text.mem_of_mem_splitOn hgap ((Text.trim_isInfix gap).mem hc)

theorem exists_mem_trim_splitOn (sep : Char) {c : Char} (hc : c ∈ cs) (hsep : c ≠ sep)
    (hblank : Text.isBlank c = false) :
    ∃ part ∈ (cs.splitOn sep).map Text.trim, c ∈ part := by
  have hwhole : [sep].intercalate (cs.splitOn sep) = cs := List.intercalate_splitOn sep
  rw [← hwhole] at hc
  rcases Text.mem_of_mem_intercalate hc with hmem | ⟨gap, hgap, hmem⟩
  · exact absurd (List.mem_singleton.1 hmem) hsep
  · exact ⟨Text.trim gap, List.mem_map_of_mem hgap, Text.mem_trim hmem hblank⟩

/-! ## The grammar -/

/-- A part of a slice: a number, or nothing for one that is missing. -/
def SpellsBound (cs : List Char) (n? : Option Int) : Prop :=
  (cs = [] ∧ n? = none) ∨ ∃ n, n? = some n ∧ IsLiteral cs n

def SpellsEntry (cs : List Char) : IndexEntry → Prop
  | .single n => IsLiteral cs n
  | .slice start? stop? step? =>
    List.Forall₂ SpellsBound ((cs.splitOn ':').map Text.trim) [start?, stop?, step?] ∨
      (List.Forall₂ SpellsBound ((cs.splitOn ':').map Text.trim) [start?, stop?] ∧ step? = none)

/-- The characters behind the exclamation mark. -/
def IsEntrySign (c : Char) : Prop :=
  isDigit c ∨ c ∈ ['-', ':', ',', ' ']

/-- The parts between commas, without blank ones. -/
def commaParts (cs : List Char) : List (List Char) :=
  ((cs.splitOn ',').map Text.trim).filter (· ≠ [])

def SpellsFilter (cs : List Char) (filter : IndexFilter) : Prop :=
  ∃ body, cs = (if filter.exclude then '!' :: body else body) ∧ (∀ c ∈ body, IsEntrySign c) ∧
    filter.entries ≠ [] ∧ List.Forall₂ SpellsEntry (commaParts body) filter.entries

/-! ## Reading -/

theorem component?_eq_some_iff (hplus : '+' ∉ cs) {n? : Option Int} :
    IndexEntry.component? cs = some n? ↔ SpellsBound cs n? := by
  unfold IndexEntry.component? SpellsBound
  by_cases hnil : cs = []
  · subst hnil
    have hnone : ¬ ∃ n, n? = some n ∧ IsLiteral [] n := fun ⟨n, _, h⟩ => h.ne_nil rfl
    simp [hnone, eq_comm]
  · rw [if_neg (by simpa using hnil)]
    simp [hnil, Decimal.signed64?_eq_some_iff hplus, and_comm, eq_comm]

theorem colon_not_mem_of_isLiteral {n : Int} (h : IsLiteral cs n) : ':' ∉ cs :=
  fun hcolon => absurd (Decimal.isDigit_or_minus_of_isLiteral h ':' hcolon) (by decide)

theorem parse?_entry_of_colon (hcolon : ':' ∈ cs) (hplus : '+' ∉ cs) :
    IndexEntry.parse? cs = some entry ↔ SpellsEntry cs entry := by
  have hparts : ∀ part ∈ (cs.splitOn ':').map Text.trim, '+' ∉ part :=
    fun part hpart hmem => hplus (mem_of_mem_trim_splitOn hpart hmem)
  unfold IndexEntry.parse?
  rw [if_neg (by simpa using hcolon), ← List.splitOn_eq_splitOnP]
  have hsingle : ∀ n, ¬ IsLiteral cs n := fun n h => colon_not_mem_of_isLiteral h hcolon
  cases entry with
  | single n =>
      simp only [SpellsEntry, hsingle, iff_false]
      split <;> simp [Option.bind_eq_some_iff]
  | slice start? stop? step? =>
      simp only [SpellsEntry]
      generalize (cs.splitOn ':').map Text.trim = parts at hparts ⊢
      match parts, hparts with
      | [], _ => simp
      | [x], _ => simp
      | [x, y], hparts =>
          have hx := hparts x (by simp)
          have hy := hparts y (by simp)
          simp [Option.bind_eq_some_iff, component?_eq_some_iff hx, component?_eq_some_iff hy,
            eq_comm (b := step?), and_assoc]
      | [x, y, z], hparts =>
          have hx := hparts x (by simp)
          have hy := hparts y (by simp)
          have hz := hparts z (by simp)
          simp [Option.bind_eq_some_iff, component?_eq_some_iff hx, component?_eq_some_iff hy,
            component?_eq_some_iff hz]
      | x :: y :: z :: w :: more, _ => simp

theorem parse?_entry_eq_some_iff (hplus : '+' ∉ cs) :
    IndexEntry.parse? cs = some entry ↔ SpellsEntry cs entry := by
  by_cases hcolon : ':' ∈ cs
  · exact parse?_entry_of_colon hcolon hplus
  · unfold IndexEntry.parse?
    rw [if_pos (by simpa using hcolon)]
    cases entry with
    | single n => simp [SpellsEntry, Decimal.signed64?_eq_some_iff hplus]
    | slice start? stop? step? =>
        have hwhole : cs.splitOn ':' = [cs] := List.splitOn_eq_singleton hcolon
        simp [SpellsEntry, hwhole]

/-! ## Reading a filter -/

theorem isFilterChar_iff {c : Char} : IndexFilter.isFilterChar c ↔ IsEntrySign c ∨ c = '!' := by
  unfold IndexFilter.isFilterChar IsEntrySign
  simp only [Bool.or_eq_true, beq_iff_eq, List.mem_cons, List.not_mem_nil, or_false]
  tauto

theorem not_isEntrySign_bang : ¬ IsEntrySign '!' := by
  unfold IsEntrySign
  decide

theorem plus_not_mem (h : ∀ c ∈ cs, IndexFilter.isFilterChar c) : '+' ∉ cs :=
  fun hmem => absurd (h '+' hmem) (by decide)

theorem bang_not_mem_of_spellsEntry (h : SpellsEntry cs entry) : '!' ∉ cs := by
  intro hbang
  cases entry with
  | single n => exact absurd (Decimal.isDigit_or_minus_of_isLiteral h '!' hbang) (by decide)
  | slice start? stop? step? =>
      obtain ⟨part, hpart, hmem⟩ := exists_mem_trim_splitOn ':' hbang (by decide) (by decide)
      have hbound : ∀ part n?, SpellsBound part n? → '!' ∉ part := by
        rintro part n? (⟨rfl, -⟩ | ⟨n, -, hliteral⟩) hmem
        · simp at hmem
        · exact absurd (Decimal.isDigit_or_minus_of_isLiteral hliteral '!' hmem) (by decide)
      rcases h with h | ⟨h, -⟩
      · exact forall_left_of_forall₂ h hbound part hpart hmem
      · exact forall_left_of_forall₂ h hbound part hpart hmem

theorem forall_isEntrySign (hall : ∀ c ∈ cs, IndexFilter.isFilterChar c)
    (hparts : List.Forall₂ SpellsEntry (commaParts cs) entries) : ∀ c ∈ cs, IsEntrySign c := by
  intro c hc
  by_cases hbang : c = '!'
  · subst hbang
    obtain ⟨part, hpart, hmem⟩ := exists_mem_trim_splitOn ',' hc (by decide) (by decide)
    have hcomma : part ∈ commaParts cs :=
      List.mem_filter.2 ⟨hpart, by simpa using List.ne_nil_of_mem hmem⟩
    exact absurd hmem
      (forall_left_of_forall₂ hparts (fun _ _ => bang_not_mem_of_spellsEntry) part hcomma)
  · exact (isFilterChar_iff.1 (hall c hc)).resolve_right hbang

theorem mapM_parse?_commaParts (hplus : '+' ∉ cs) :
    (commaParts cs).mapM IndexEntry.parse? = some entries ↔
      List.Forall₂ SpellsEntry (commaParts cs) entries := by
  have hparts : ∀ part ∈ commaParts cs, '+' ∉ part := by
    intro part hpart hmem
    exact hplus (mem_of_mem_trim_splitOn (List.mem_filter.1 hpart).1 hmem)
  have hread : ∀ part entry, '+' ∉ part →
      (IndexEntry.parse? part = some entry ↔ SpellsEntry part entry) :=
    fun _ _ hpart => parse?_entry_eq_some_iff hpart
  rw [mapM_eq_some_iff]
  constructor
  · intro h
    exact ((List.forall₂_and_left _ _).2 ⟨hparts, h⟩).imp
      fun part entry hpart => (hread part entry hpart.1).1 hpart.2
  · intro h
    exact ((List.forall₂_and_left _ _).2 ⟨hparts, h⟩).imp
      fun part entry hpart => (hread part entry hpart.1).2 hpart.2

/-- The parts between commas as entries of a filter, the exclamation mark being read. -/
def SpellsBody (body : List Char) (exclude : Bool) (filter : IndexFilter) : Prop :=
  filter.exclude = exclude ∧ (∀ c ∈ body, IsEntrySign c) ∧ filter.entries ≠ [] ∧
    List.Forall₂ SpellsEntry (commaParts body) filter.entries

theorem spellsFilter_bang_cons : SpellsFilter ('!' :: cs) filter ↔ SpellsBody cs true filter := by
  unfold SpellsFilter SpellsBody
  constructor
  · rintro ⟨body, hbody, hsigns, hrest⟩
    split_ifs at hbody with hexclude
    · obtain rfl := (List.cons.inj hbody).2
      exact ⟨hexclude, hsigns, hrest⟩
    · subst hbody
      exact absurd (hsigns '!' List.mem_cons_self) not_isEntrySign_bang
  · rintro ⟨hexclude, hsigns, hrest⟩
    exact ⟨cs, by rw [if_pos hexclude], hsigns, hrest⟩

theorem spellsFilter_of_not_bang (h : ∀ rest, cs ≠ '!' :: rest) :
    SpellsFilter cs filter ↔ SpellsBody cs false filter := by
  unfold SpellsFilter SpellsBody
  constructor
  · rintro ⟨body, hbody, hsigns, hrest⟩
    split_ifs at hbody with hexclude
    · exact absurd hbody (h body)
    · subst hbody
      exact ⟨by simpa using hexclude, hsigns, hrest⟩
  · rintro ⟨hexclude, hsigns, hrest⟩
    exact ⟨cs, by simp [hexclude], hsigns, hrest⟩

theorem SpellsFilter.isFilterChar (h : SpellsFilter cs filter) :
    ∀ c ∈ cs, IndexFilter.isFilterChar c := by
  obtain ⟨body, rfl, hsigns, -⟩ := h
  intro c hc
  rw [isFilterChar_iff]
  split_ifs at hc
  · exact (List.mem_cons.1 hc).symm.imp_left (hsigns c)
  · exact .inl (hsigns c hc)

theorem SpellsFilter.ne_nil (h : SpellsFilter cs filter) : cs ≠ [] := by
  rintro rfl
  rw [spellsFilter_of_not_bang (by simp)] at h
  obtain ⟨-, -, hne, hparts⟩ := h
  exact hne (List.forall₂_nil_left_iff.1 hparts)

namespace IndexFilter

theorem readBody_iff (hall : ∀ c ∈ cs, isFilterChar c) (exclude : Bool) :
    (match (((cs.splitOnP (· == ',')).map Text.trim).filter fun p => !p.isEmpty).mapM
        IndexEntry.parse? with
      | none => none
      | some [] => none
      | some entries => some ({ exclude, entries } : IndexFilter)) = some filter ↔
      SpellsBody cs exclude filter := by
  have hparts : (((cs.splitOnP (· == ',')).map Text.trim).filter fun p => !p.isEmpty) =
      commaParts cs := by
    rw [commaParts, List.splitOn_eq_splitOnP]
    congr 1
    funext part
    cases part <;> rfl
  have hmapM : ∀ entries, (commaParts cs).mapM IndexEntry.parse? = some entries ↔
      List.Forall₂ SpellsEntry (commaParts cs) entries :=
    fun _ => mapM_parse?_commaParts (plus_not_mem hall)
  rw [hparts]
  unfold SpellsBody
  constructor
  · intro h
    split at h
    next => simp at h
    next => simp at h
    next entries hne hread =>
      obtain rfl := Option.some.inj h
      have hentries := (hmapM entries).1 hread
      exact ⟨rfl, forall_isEntrySign hall hentries, fun hnil => hne (by simpa using hnil), hentries⟩
  · rintro ⟨rfl, -, hne, hentries⟩
    rw [(hmapM _).2 hentries]
    cases hcases : filter.entries with
    | nil => exact absurd hcases hne
    | cons entry entries => simp [← hcases]

theorem parse?_eq_some_iff {raw : List Char} :
    parse? raw = some filter ↔ SpellsFilter (Text.trim raw) filter := by
  unfold parse?
  generalize Text.trim raw = cs
  have hguard : (cs.isEmpty || !cs.all isFilterChar) = true ↔
      ¬ (cs ≠ [] ∧ ∀ c ∈ cs, isFilterChar c) := by
    simp [or_iff_not_imp_left]
  by_cases hall : cs ≠ [] ∧ ∀ c ∈ cs, isFilterChar c
  · rw [if_neg (by rw [hguard, not_not]; exact hall)]
    split
    next exclude body heq =>
      split at heq
      next rest =>
        obtain ⟨rfl, rfl⟩ := Prod.mk.inj heq
        rw [spellsFilter_bang_cons]
        exact readBody_iff (fun c hc => hall.2 c (List.mem_cons_of_mem _ hc)) true
      next hbang =>
        obtain ⟨rfl, rfl⟩ := Prod.mk.inj heq
        rw [spellsFilter_of_not_bang fun rest => hbang rest]
        exact readBody_iff hall.2 false
  · rw [if_pos (hguard.2 hall)]
    simp only [reduceCtorEq, false_iff]
    exact fun h => hall ⟨h.ne_nil, h.isFilterChar⟩

end IndexFilter

/-! ## Writing a filter -/

namespace IndexEntry

def writtenBound (n? : Option Int) : List Char :=
  (n?.map Json.wholeText).getD []

/-- An entry in the syntax of the brackets. -/
def written : IndexEntry → List Char
  | .single n => Json.wholeText n
  | .slice start? stop? step? =>
    [':'].intercalate ([start?, stop?, step?].map writtenBound)

end IndexEntry

namespace IndexFilter

/-- A filter in the syntax of the brackets. -/
def written (filter : IndexFilter) : List Char :=
  let body := [','].intercalate (filter.entries.map IndexEntry.written)
  if filter.exclude then '!' :: body else body

end IndexFilter

theorem isDigit_or_minus_of_mem_wholeText {n : Int} {c : Char} (hc : c ∈ Json.wholeText n) :
    isDigit c ∨ c = '-' :=
  Decimal.isDigit_or_minus_of_mem_signed hc

theorem wholeText_ne_nil (n : Int) : Json.wholeText n ≠ [] :=
  Decimal.signed_ne_nil

theorem isEntrySign_of_sign {c : Char} (h : isDigit c ∨ c = '-' ∨ c = ':') :
    IsEntrySign c ∧ c ≠ ',' ∧ Text.isBlank c = false := by
  unfold IsEntrySign
  rcases h with hdigit | rfl | rfl
  · have hrange : 48 ≤ c.toNat ∧ c.toNat ≤ 57 := by
      rw [isDigit, Bool.and_eq_true, decide_eq_true_eq, decide_eq_true_eq] at hdigit
      exact hdigit
    refine ⟨.inl hdigit, ?_, ?_⟩
    · rintro rfl
      exact absurd hdigit (by decide)
    · simp only [Text.isBlank, Bool.or_eq_false_iff, Bool.and_eq_false_iff,
        decide_eq_false_iff_not, beq_eq_false_iff_ne]
      omega
  · decide
  · decide

namespace IndexEntry

variable {n? : Option Int}

theorem isDigit_or_minus_of_mem_writtenBound {c : Char} (hc : c ∈ writtenBound n?) :
    isDigit c ∨ c = '-' := by
  cases n? with
  | none => simp [writtenBound] at hc
  | some n => exact isDigit_or_minus_of_mem_wholeText hc

theorem spellsBound_writtenBound (h : ∀ n ∈ n?, inSigned64 n) :
    SpellsBound (writtenBound n?) n? := by
  cases n? with
  | none => exact .inl ⟨rfl, rfl⟩
  | some n => exact .inr ⟨n, rfl, Decimal.isLiteral_wholeText (h n rfl)⟩

theorem sign_of_mem_written {c : Char} (hc : c ∈ entry.written) :
    isDigit c ∨ c = '-' ∨ c = ':' := by
  cases entry with
  | single n => exact (isDigit_or_minus_of_mem_wholeText hc).imp_right .inl
  | slice start? stop? step? =>
      rcases Text.mem_of_mem_intercalate hc with hcolon | ⟨part, hpart, hmem⟩
      · exact .inr (.inr (List.mem_singleton.1 hcolon))
      · obtain ⟨n?, -, rfl⟩ := List.mem_map.1 hpart
        exact (isDigit_or_minus_of_mem_writtenBound hmem).imp_right .inl

theorem written_ne_nil (entry : IndexEntry) : entry.written ≠ [] := by
  cases entry with
  | single n => exact wholeText_ne_nil n
  | slice => simp [written]

theorem spellsEntry_written (h : entry.Fits) : SpellsEntry entry.written entry := by
  cases entry with
  | single n => exact Decimal.isLiteral_wholeText h
  | slice start? stop? step? =>
      have hcolon : ∀ part ∈ [start?, stop?, step?].map writtenBound, ':' ∉ part := by
        intro part hpart hmem
        obtain ⟨n?, -, rfl⟩ := List.mem_map.1 hpart
        exact absurd (isDigit_or_minus_of_mem_writtenBound hmem) (by decide)
      have htrim : ∀ n?, Text.trim (writtenBound n?) = writtenBound n? := by
        intro n?
        apply Text.trim_eq_self_of_forall
        intro c hc
        have hsign := isDigit_or_minus_of_mem_writtenBound hc
        exact (isEntrySign_of_sign (hsign.imp_right .inl)).2.2
      left
      rw [written, List.splitOn_intercalate ':' hcolon (by simp)]
      simp only [List.map_cons, List.map_nil, htrim]
      refine .cons ?_ (.cons ?_ (.cons ?_ .nil))
      · exact spellsBound_writtenBound fun n hn => h n (.inl hn)
      · exact spellsBound_writtenBound fun n hn => h n (.inr (.inl hn))
      · exact spellsBound_writtenBound fun n hn => h n (.inr (.inr hn))

end IndexEntry

namespace IndexFilter

variable {c : Char}

theorem commaParts_intercalate (hne : entries ≠ []) :
    commaParts ([','].intercalate (entries.map IndexEntry.written)) =
      entries.map IndexEntry.written := by
  have hcomma : ∀ part ∈ entries.map IndexEntry.written, ',' ∉ part := by
    intro part hpart hmem
    obtain ⟨entry, -, rfl⟩ := List.mem_map.1 hpart
    exact (isEntrySign_of_sign (IndexEntry.sign_of_mem_written hmem)).2.1 rfl
  have htrim : ∀ entry : IndexEntry, Text.trim entry.written = entry.written := by
    intro entry
    apply Text.trim_eq_self_of_forall
    intro c hc
    exact (isEntrySign_of_sign (IndexEntry.sign_of_mem_written hc)).2.2
  rw [commaParts, List.splitOn_intercalate ',' hcomma (by simpa using hne), List.map_map,
    Function.comp_def, List.map_congr_left fun entry _ => htrim entry, List.filter_eq_self]
  intro part hpart
  obtain ⟨entry, -, rfl⟩ := List.mem_map.1 hpart
  simpa using entry.written_ne_nil

theorem isEntrySign_of_mem_body (hc : c ∈ [','].intercalate (entries.map IndexEntry.written)) :
    IsEntrySign c ∧ Text.isBlank c = false := by
  rcases Text.mem_of_mem_intercalate hc with hcomma | ⟨part, hpart, hmem⟩
  · obtain rfl := List.mem_singleton.1 hcomma
    unfold IsEntrySign
    decide
  · obtain ⟨entry, -, rfl⟩ := List.mem_map.1 hpart
    have hsign := isEntrySign_of_sign (IndexEntry.sign_of_mem_written hmem)
    exact ⟨hsign.1, hsign.2.2⟩

theorem mem_written (hc : c ∈ filter.written) :
    (IsEntrySign c ∨ c = '!') ∧ Text.isBlank c = false := by
  unfold written at hc
  split_ifs at hc
  · rcases List.mem_cons.1 hc with rfl | hbody
    · exact ⟨.inr rfl, by decide⟩
    · exact (isEntrySign_of_mem_body hbody).imp_left .inl
  · exact (isEntrySign_of_mem_body hc).imp_left .inl

theorem spellsFilter_written (hne : filter.entries ≠ [])
    (hfits : ∀ entry ∈ filter.entries, entry.Fits) : SpellsFilter filter.written filter := by
  refine ⟨_, rfl, fun c hc => (isEntrySign_of_mem_body hc).1, hne, ?_⟩
  rw [commaParts_intercalate hne, List.forall₂_map_left_iff, List.forall₂_same]
  exact fun entry hentry => IndexEntry.spellsEntry_written (hfits entry hentry)

theorem parse?_written (hne : filter.entries ≠ [])
    (hfits : ∀ entry ∈ filter.entries, entry.Fits) : parse? filter.written = some filter := by
  have htrim : Text.trim filter.written = filter.written :=
    Text.trim_eq_self_of_forall fun c hc => (mem_written hc).2
  rw [parse?_eq_some_iff, htrim]
  exact spellsFilter_written hne hfits

/-- Brackets behind a selector are cut off, whatever stands in the selector. -/
theorem split_brackets {inside : List Char} (hopen : '[' ∉ inside)
    (hread : parse? inside = some filter) (selector : List Char) :
    split (selector ++ '[' :: inside ++ [']']) = (Text.trim selector, some filter) := by
  have hbrackets : Text.trim ('[' :: inside ++ [']']) = '[' :: inside ++ [']'] := by
    have hclose : Text.trimEnd [']'] = [']'] := by decide
    have hstart : Text.trimStart ('[' :: inside ++ [']']) = '[' :: inside ++ [']'] :=
      List.dropWhile_cons_of_neg (by decide)
    rw [Text.trim, hstart, Text.trimEnd_append (by rw [hclose]; simp), hclose]
  have hstep : Text.trim (selector ++ '[' :: inside ++ [']']) =
      Text.trimStart selector ++ '[' :: inside ++ [']'] := by
    rw [List.append_assoc, Text.trim_append hbrackets (by simp), List.append_assoc]
  rw [split, hstep, if_pos List.getLast?_concat, List.dropLast_concat,
    Text.cutAtLast?_append_cons hopen]
  simp only [hread, Text.trim]

/-- A filter that is written in the syntax of the brackets is read back, also behind a
selector, and what is read is written by the grammar. -/
theorem brackets_read_back :
    (∀ filter : IndexFilter, filter.entries ≠ [] → (∀ entry ∈ filter.entries, entry.Fits) →
      parse? filter.written = some filter ∧
        ∀ selector, split (selector ++ '[' :: filter.written ++ [']']) =
          (Text.trim selector, some filter)) ∧
    ∀ raw filter, parse? raw = some filter ↔ SpellsFilter (Text.trim raw) filter := by
  refine ⟨fun filter hne hfits => ?_, fun raw filter => parse?_eq_some_iff⟩
  have hread := parse?_written hne hfits
  have hopen : '[' ∉ filter.written := fun hmem =>
    absurd (mem_written hmem).1 (by unfold IsEntrySign; decide)
  exact ⟨hread, split_brackets hopen hread⟩

/-- The least number, a slice of missing parts and one that walks back, behind a selector
with brackets of its own. -/
theorem brackets_read_back_dropping :
    let back : IndexEntry := .slice (some 3) (some (-1)) (some (-2))
    let filter : IndexFilter :=
      { exclude := true
        entries := [.single (-9223372036854775808), .slice none none none, back] }
    filter.written = "!-9223372036854775808,::,3:-1:-2".toList ∧
      parse? filter.written = some filter ∧
      split (" a[href] ".toList ++ '[' :: filter.written ++ [']']) =
        ("a[href]".toList, some filter) := by
  intro back filter
  have hfits : ∀ entry ∈ filter.entries, entry.Fits := by
    intro entry hentry
    simp only [filter, List.mem_cons, List.not_mem_nil, or_false] at hentry
    rcases hentry with rfl | rfl | rfl
    · show inSigned64 _
      decide
    · intro n hn
      simp at hn
    · intro n hn
      simp only [Option.mem_def, Option.some.injEq] at hn
      rcases hn with rfl | rfl | rfl <;> decide
  obtain ⟨hread, hsplit⟩ := brackets_read_back.1 filter (List.cons_ne_nil _ _) hfits
  refine ⟨by decide, hread, ?_⟩
  rw [hsplit]
  congr 1

end IndexFilter

end BookRules.Select
