import BookRules.Source.Document
import BookRules.Proofs.Json.Printing

/-!
# Documents with sources

A list of sources is read back from its JSON text as it is, provided that each of them can be
used; whatever is read, it is never a source that cannot be used.
-/

namespace BookRules.Source

open Json (Printable)

/-- A source with an address that can be read. -/
def Usable (source : Source) : Prop :=
  Text.isBlankText source.url = false ∧ ∃ url, Url.parse source.url = .ok url

/-- The sources that a document holds, usable or not. -/
def heldBy? : Json → Option (List Source)
  | .array items => items.mapM ofJson?
  | .object members => (ofJson? (.object members)).map ([·])
  | _ => none

variable {source other : Source} {sources read : List Source}

/-! ## Members -/

theorem optionalText?_optionalJson (field : Option String) :
    optionalText? (some (optionalJson field)) = some field := by
  cases field <;> rfl

theorem searchRules?_object (rules : SearchRules) :
    searchRules? (.object [
      ("bookList", optionalJson rules.bookList), ("name", optionalJson rules.name),
      ("author", optionalJson rules.author), ("kind", optionalJson rules.kind),
      ("wordCount", optionalJson rules.wordCount),
      ("lastChapter", optionalJson rules.lastChapter), ("intro", optionalJson rules.intro),
      ("coverUrl", optionalJson rules.coverUrl), ("bookUrl", optionalJson rules.bookUrl)]) =
    some rules := by
  simp only [searchRules?, fieldsOf?, Json.lookup?, String.reduceEq, if_true, if_false,
    optionalText?_optionalJson, Option.bind_eq_bind, Option.bind_some, Option.pure_def]

theorem detailRules?_object (rules : DetailRules) :
    detailRules? (.object [
      ("init", optionalJson rules.init), ("name", optionalJson rules.name),
      ("author", optionalJson rules.author), ("intro", optionalJson rules.intro),
      ("kind", optionalJson rules.kind), ("wordCount", optionalJson rules.wordCount),
      ("lastChapter", optionalJson rules.lastChapter),
      ("coverUrl", optionalJson rules.coverUrl), ("tocUrl", optionalJson rules.tocUrl)]) =
    some rules := by
  simp only [detailRules?, fieldsOf?, Json.lookup?, String.reduceEq, if_true, if_false,
    optionalText?_optionalJson, Option.bind_eq_bind, Option.bind_some, Option.pure_def]

theorem tocRules?_object (rules : TocRules) :
    tocRules? (.object [
      ("chapterList", optionalJson rules.chapterList),
      ("chapterName", optionalJson rules.chapterName),
      ("chapterUrl", optionalJson rules.chapterUrl),
      ("nextTocUrl", optionalJson rules.nextTocUrl)]) = some rules := by
  simp only [tocRules?, fieldsOf?, Json.lookup?, String.reduceEq, if_true, if_false,
    optionalText?_optionalJson, Option.bind_eq_bind, Option.bind_some, Option.pure_def]

theorem chapterRules?_object (rules : ChapterRules) :
    chapterRules? (.object [
      ("content", optionalJson rules.content),
      ("nextContentUrl", optionalJson rules.nextContentUrl),
      ("replaceRegex", optionalJson rules.replaceRegex)]) = some rules := by
  simp only [chapterRules?, fieldsOf?, Json.lookup?, String.reduceEq, if_true, if_false,
    optionalText?_optionalJson, Option.bind_eq_bind, Option.bind_some, Option.pure_def]

theorem ofJson?_toJson (source : Source) : ofJson? source.toJson = some source := by
  -- every member is found under its name
  change (do
    return {
      name := source.name
      url := source.url
      group := ← optionalText? (some (optionalJson source.group))
      enabled := source.enabled
      header := ← optionalText? (some (optionalJson source.header))
      searchUrl := ← optionalText? (some (optionalJson source.searchUrl))
      search := ← searchRules? _
      detail := ← detailRules? _
      toc := ← tocRules? _
      chapter := ← chapterRules? _ }) = some source
  simp only [searchRules?_object, detailRules?_object, tocRules?_object, chapterRules?_object,
    optionalText?_optionalJson, Option.bind_eq_bind, Option.bind_some, Option.pure_def]

theorem mapM_ofJson?_toJson (sources : List Source) :
    (sources.map toJson).mapM ofJson? = some sources := by
  induction sources with
  | nil => rfl
  | cons source rest ih => simp [ofJson?_toJson, ih]

/-! ## The text of a source -/

theorem printable_optionalJson (depth : Nat) (field : Option String) :
    Printable depth (optionalJson field) := by
  cases field with
  | none => exact .null
  | some s => exact .string s

theorem printable_toJson (depth : Nat) (source : Source) :
    Printable (depth + 2) source.toJson := by
  refine .object ?_
  simp only [List.forall_mem_cons]
  refine ⟨.string _, .string _, printable_optionalJson _ _, .bool _, printable_optionalJson _ _,
    printable_optionalJson _ _, ?_⟩
  refine ⟨.object ?_, .object ?_, .object ?_, .object ?_, by simp⟩
  all_goals simp [printable_optionalJson]

theorem distinct_optionalJson (field : Option String) : (optionalJson field).Distinct := by
  cases field with
  | none => exact Json.distinct_null
  | some s => exact Json.distinct_string s

theorem distinct_toJson (source : Source) : source.toJson.Distinct := by
  simp only [toJson, Json.distinct_object, List.forall_mem_cons, Json.distinct_string,
    Json.distinct_bool, distinct_optionalJson]
  simp

/-! ## Sources that can be used -/

theorem check_of_usable (h : source.Usable) : check source = .ok source := by
  obtain ⟨hblank, url, hurl⟩ := h
  simp [check, hblank, hurl]

theorem check_of_not_usable (h : ¬ source.Usable) : ∃ fault, check source = .error fault := by
  unfold check
  split_ifs with hblank
  · exact ⟨_, rfl⟩
  · cases hurl : Url.parse source.url with
    | ok url => exact absurd ⟨by simpa using hblank, url, hurl⟩ h
    | error fault => exact ⟨_, rfl⟩

theorem mapM_check_of_usable (h : ∀ source ∈ sources, source.Usable) :
    sources.mapM check = .ok sources := by
  induction sources with
  | nil => rfl
  | cons source rest ih =>
      rw [List.forall_mem_cons] at h
      rw [List.mapM_cons, check_of_usable h.1, ih h.2]
      rfl

/-- One source that cannot be used makes all of them unusable. -/
theorem mapM_check_of_not_usable (hmem : source ∈ sources) (h : ¬ source.Usable) :
    ∃ fault, sources.mapM check = .error fault := by
  induction sources with
  | nil => simp at hmem
  | cons first rest ih =>
      rw [List.mapM_cons]
      by_cases hfirst : first.Usable
      · obtain ⟨fault, hfault⟩ : ∃ fault, rest.mapM check = .error fault := by
          rcases List.mem_cons.1 hmem with rfl | hrest
          · exact absurd hfirst h
          · exact ih hrest
        rw [check_of_usable hfirst, hfault]
        exact ⟨fault, rfl⟩
      · obtain ⟨fault, hfault⟩ := check_of_not_usable hfirst
        rw [hfault]
        exact ⟨fault, rfl⟩

/-! ## Documents -/

/-- What is read is what the document holds, when all of it can be used. -/
theorem readAll_eq {text : String} {doc : Json} (hdoc : Json.parse? text.toList = some doc)
    (hheld : heldBy? doc = some sources) :
    readAll text = (sources.mapM check).mapError .source := by
  unfold readAll
  rw [hdoc]
  cases doc with
  | array items =>
      have hitems : items.mapM ofJson? = some sources := hheld
      simp [hitems]
  | object members =>
      have hmembers : (ofJson? (.object members)).map ([·]) = some sources := hheld
      simp [hmembers]
  | null => cases hheld
  | bool b => cases hheld
  | number n => cases hheld
  | string s => cases hheld

theorem exists_heldBy? {text : String} (h : readAll text = .ok sources) :
    ∃ doc held, Json.parse? text.toList = some doc ∧ heldBy? doc = some held := by
  unfold readAll at h
  split at h
  · cases h
  · next items hdoc =>
      cases hitems : items.mapM ofJson? with
      | none => simp [hitems] at h
      | some held => exact ⟨_, held, hdoc, hitems⟩
  · next members hdoc =>
      cases hmembers : (ofJson? (.object members)).map ([·]) with
      | none => simp [hmembers] at h
      | some held => exact ⟨_, held, hdoc, hmembers⟩
  · cases h

/-- A document is read as the sources it holds, if all of them can be used, and otherwise not
at all. -/
theorem readAll_eq_ok_iff {text : String} :
    readAll text = .ok sources ↔ (∃ doc, Json.parse? text.toList = some doc ∧
      heldBy? doc = some sources) ∧ ∀ source ∈ sources, source.Usable := by
  constructor
  · intro h
    obtain ⟨doc, held, hdoc, hheld⟩ := exists_heldBy? h
    have hread := readAll_eq hdoc hheld
    have husable : ∀ source ∈ held, source.Usable := by
      intro source hmem
      by_contra hsource
      obtain ⟨fault, hfault⟩ := mapM_check_of_not_usable hmem hsource
      rw [hread, hfault] at h
      cases h
    rw [hread, mapM_check_of_usable husable] at h
    obtain rfl := Except.ok.inj h
    exact ⟨⟨doc, hdoc, hheld⟩, husable⟩
  · rintro ⟨⟨doc, hdoc, hheld⟩, husable⟩
    rw [readAll_eq hdoc hheld, mapM_check_of_usable husable]
    rfl

/-- Both texts of a document are read as the sources that it holds. -/
theorem readAll_printed {doc : Json} (hprintable : Printable Json.maxDepth doc)
    (hdistinct : doc.Distinct) (hheld : heldBy? doc = some sources)
    (husable : ∀ source ∈ sources, source.Usable) :
    readAll doc.compact = .ok sources ∧ readAll doc.pretty = .ok sources := by
  have hread : ∀ cs, Json.parse? cs = some doc → readAll (String.ofList cs) = .ok sources := by
    intro cs hdoc
    exact readAll_eq_ok_iff.2 ⟨⟨doc, by rwa [String.toList_ofList], hheld⟩, husable⟩
  exact ⟨hread _ (Json.parse?_text hprintable hdistinct),
    hread _ (Json.parse?_prettyText hprintable hdistinct)⟩

theorem printable_array (sources : List Source) :
    Printable Json.maxDepth (.array (sources.map toJson)) := by
  refine @Printable.array 126 _ fun item hitem => ?_
  obtain ⟨source, -, rfl⟩ := List.mem_map.1 hitem
  exact printable_toJson 124 source

theorem distinct_array (sources : List Source) : (Json.array (sources.map toJson)).Distinct := by
  rw [Json.distinct_array]
  intro item hitem
  obtain ⟨source, -, rfl⟩ := List.mem_map.1 hitem
  exact distinct_toJson source

/-- Sources that can be used are read back from their documents, in their order, and nothing
else is ever read: a document that holds a source that cannot be used gives a fault. -/
theorem readAll_toJson :
    (∀ sources : List Source, (∀ source ∈ sources, source.Usable) →
      readAll (Json.array (sources.map toJson)).compact = .ok sources ∧
      readAll (Json.array (sources.map toJson)).pretty = .ok sources) ∧
    (∀ source : Source, source.Usable →
      readAll source.toJson.compact = .ok [source] ∧
      readAll source.toJson.pretty = .ok [source]) ∧
    (∀ text sources, readAll text = .ok sources → ∀ source ∈ sources, source.Usable) ∧
    ∀ (text : String) (doc : Json) (sources : List Source) (source : Source),
      Json.parse? text.toList = some doc → heldBy? doc = some sources → source ∈ sources →
      ¬ source.Usable → ∃ fault, readAll text = .error (.source fault) := by
  refine ⟨fun sources husable => ?_, fun source husable => ?_,
    fun text sources hread => (readAll_eq_ok_iff.1 hread).2,
    fun text doc sources source hdoc hheld hmem hsource => ?_⟩
  · exact readAll_printed (printable_array sources) (distinct_array sources)
      (mapM_ofJson?_toJson sources) husable
  · have hheld : heldBy? source.toJson = some [source] := by
      change (ofJson? source.toJson).map ([·]) = some [source]
      rw [ofJson?_toJson, Option.map_some]
    exact readAll_printed (printable_toJson 125 source) (distinct_toJson source) hheld
      (by simpa using husable)
  · obtain ⟨fault, hfault⟩ := mapM_check_of_not_usable hmem hsource
    rw [readAll_eq hdoc hheld, hfault]
    exact ⟨fault, rfl⟩

/-- A source whose texts need every kind of escape. -/
def quotedShelf : Source where
  name := "\"Shelf\" \\ \n\x01"
  url := "book:shelf"
  group := some ""
  enabled := false

theorem readAll_toJson_quotedShelf :
    quotedShelf.Usable ∧
    readAll (Json.array ([quotedShelf].map toJson)).compact = .ok [quotedShelf] := by
  have husable : quotedShelf.Usable := ⟨by decide, _, rfl⟩
  exact ⟨husable, (readAll_toJson.1 [quotedShelf] (by simpa using husable)).1⟩

end BookRules.Source
