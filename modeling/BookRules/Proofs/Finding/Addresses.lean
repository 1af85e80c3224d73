import BookRules.Proofs.Finding.Stages
import BookRules.Proofs.List.Firsts

/-!
# Addresses

The addresses of a field are its texts, each resolved against the address of the page, without
those that occurred before.  The first address is found apart from the list: there a single text
is resolved, here all of them are and the repeated ones are left out afterwards.  The first of a
list is never a repeated one, so both come to the same address.

The page's address is looked up when the texts are there already, and it is still the one that the
evaluation started with.  An evaluation stores variables and remembers pipelines, and whatever else
it changes it puts back.  Sequencing keeps this, so it holds of every part of an evaluation and, by
induction on how deep rules may be nested, of the whole.
-/

namespace BookRules.Finding

variable {α β : Type} {m : Eval α} {nested : Nested} {rule : String} {s : Session}

/-! ## What an evaluation leaves as it is -/

/-- The sessions differ in the stored variables and in the remembered pipelines at most. -/
structure SameFrame (s t : Session) : Prop where
  book : s.context.book = t.context.book
  source : s.context.source = t.context.source
  baseUrl : s.context.baseUrl = t.context.baseUrl
  content : s.content = t.content
  depth : s.depth = t.depth

theorem SameFrame.refl (s : Session) : SameFrame s s :=
  ⟨rfl, rfl, rfl, rfl, rfl⟩

theorem SameFrame.trans {r s t : Session} (hrs : SameFrame r s) (hst : SameFrame s t) :
    SameFrame r t :=
  ⟨hrs.book.trans hst.book, hrs.source.trans hst.source, hrs.baseUrl.trans hst.baseUrl,
    hrs.content.trans hst.content, hrs.depth.trans hst.depth⟩

/-- Nothing but variables and pipelines changes. -/
def KeepsFrame (m : Eval α) : Prop :=
  ∀ s : Session, SameFrame (m.run s).2 s

namespace KeepsFrame

theorem pure (a : α) : KeepsFrame (Pure.pure a : Eval α) :=
  SameFrame.refl

theorem read (f : Session → α) : KeepsFrame (do return f (← get)) :=
  SameFrame.refl

theorem bind {f : α → Eval β} (hm : KeepsFrame m) (hf : ∀ a, KeepsFrame (f a)) :
    KeepsFrame (m >>= f) :=
  fun s => (hf (m.run s).1 (m.run s).2).trans (hm s)

theorem map {f : α → β} (hm : KeepsFrame m) : KeepsFrame (do return f (← m)) :=
  hm.bind fun a => pure (f a)

theorem mapM {f : α → Eval β} (hf : ∀ x, KeepsFrame (f x)) (xs : List α) :
    KeepsFrame (xs.mapM f) := by
  induction xs with
  | nil => exact pure []
  | cons x xs ih =>
      rw [List.mapM_cons]
      exact (hf x).bind fun y => ih.bind fun ys => pure (y :: ys)

theorem foldlM {f : β → α → Eval β} (hf : ∀ b x, KeepsFrame (f b x)) (xs : List α) (b : β) :
    KeepsFrame (xs.foldlM f b) := by
  induction xs generalizing b with
  | nil => exact pure b
  | cons x xs ih =>
      rw [List.foldlM_cons]
      exact (hf b x).bind ih

theorem forM {f : α → Eval PUnit} (hf : ∀ x, KeepsFrame (f x)) (xs : List α) :
    KeepsFrame (xs.forM f) := by
  induction xs with
  | nil => exact pure ()
  | cons x xs ih => exact (hf x).bind fun _ => ih

/-- The node that was bound is bound again. -/
theorem withContent (hm : KeepsFrame m) (node : Node) : KeepsFrame (withContent node m) := by
  intro s
  obtain ⟨hbook, hsource, hbaseUrl, -, hdepth⟩ := hm { s with content := node }
  exact ⟨hbook, hsource, hbaseUrl, rfl, hdepth⟩

theorem storeVariable (name text : String) :
    KeepsFrame (modify fun s => { s with context := s.context.put name text }) :=
  fun _ => ⟨rfl, rfl, rfl, rfl, rfl⟩

end KeepsFrame

/-! ## The parts of an evaluation -/

theorem runScript_keepsFrame (source : String) (input : Found) :
    KeepsFrame (runScript source input) :=
  KeepsFrame.read _

theorem find_keepsFrame (mode : Rule.Mode) (rule : String) (shape : Shape) (input : Found) :
    KeepsFrame (find mode rule shape input) := by
  cases mode with
  | script => exact (runScript_keepsFrame rule input).map
  | template => exact KeepsFrame.pure _
  | css => exact KeepsFrame.pure _
  | xpath => exact KeepsFrame.pure _
  | jsonPath => exact KeepsFrame.pure _

theorem bindVariables_keepsFrame (hnested : ∀ rule, KeepsFrame (nested rule))
    (bindings : Bindings) (input : Found) : KeepsFrame (bindVariables nested bindings input) := by
  apply KeepsFrame.forM
  rintro ⟨name, rule⟩
  exact ((hnested rule).withContent input.toNode).bind fun value =>
    KeepsFrame.storeVariable name (value.getD rule)

theorem segmentText_keepsFrame (hnested : ∀ rule, KeepsFrame (nested rule)) (input : Found)
    (segment : Rule.Segment) : KeepsFrame (segmentText nested input segment) := by
  match segment with
  | .literal text => exact KeepsFrame.pure text
  | .variable name => exact KeepsFrame.read _
  | .rule body => exact (hnested body).map
  | .script source => exact (runScript_keepsFrame source input).map
  | .group index => exact KeepsFrame.pure _

theorem resolve_keepsFrame (hnested : ∀ rule, KeepsFrame (nested rule)) (stage : Rule.Stage)
    (input : Found) : KeepsFrame (resolve nested stage input) := by
  unfold resolve
  split_ifs
  · exact (KeepsFrame.mapM (segmentText_keepsFrame hnested input) stage.segments).map.map
  · exact KeepsFrame.pure _

theorem runStage_keepsFrame (hnested : ∀ rule, KeepsFrame (nested rule)) (shape : Shape)
    (input : Found) (stage : Rule.Stage) : KeepsFrame (runStage nested shape input stage) := by
  unfold runStage
  apply (bindVariables_keepsFrame hnested stage.bindings input).bind
  intro _
  apply (resolve_keepsFrame hnested stage input).bind
  intro parts
  dsimp only
  split_ifs
  · exact KeepsFrame.pure _
  · exact (find_keepsFrame stage.mode parts.rule shape input).map

/-- Wherever it starts and however deep it goes, an evaluation changes variables and pipelines
only. -/
theorem run_keepsFrame (fuel : Nat) (shape : Shape) (rule : String) :
    KeepsFrame (run fuel shape rule) := by
  induction fuel generalizing shape rule with
  | zero => exact KeepsFrame.pure none
  | succ fuel ih =>
      intro s
      by_cases hstop : (Limits.ruleDepth ≤ s.depth || Text.isBlankText rule) = true
      · rw [run_of_stop hstop]
        exact SameFrame.refl s
      · have hnested : ∀ body, KeepsFrame (nestedText fuel body) :=
          fun body => (ih .string body).map
        obtain ⟨hbook, hsource, hbaseUrl, hcontent, hdepth⟩ :=
          KeepsFrame.foldlM (runStage_keepsFrame hnested shape)
            (Rule.pipeline (contentOf s.content) rule) (.node s.content)
            { s with
              cache := (s.cache.fetch (contentOf s.content) rule).2
              depth := s.depth + 1 }
        rw [run_of_go hstop]
        exact ⟨hbook, hsource, hbaseUrl, hcontent, by simp [hdepth]⟩

theorem strings?_keepsFrame (rule : String) : KeepsFrame (Bound.strings? rule) :=
  (run_keepsFrame Limits.ruleDepth .list rule).map

/-! ## Addresses of texts -/

/-- The address a text stands for: the text without the blanks around it, seen from the page, and
that text itself where this gives no address. -/
def addressOf (base text : String) : String :=
  (Url.absolute base (Text.trimmed text)).toOption.getD (Text.trimmed text)

theorem addressOf_eq (base : String) :
    addressOf base = fun text => resolved base (Text.trimmed text) := by
  funext text
  unfold addressOf resolved
  cases Url.absolute base (Text.trimmed text) <;> rfl

/-! ## First occurrences -/

theorem head?_eraseDups (addresses : List String) :
    addresses.eraseDups.head? = addresses.head? := by
  cases addresses with
  | nil => rfl
  | cons first rest => rw [List.eraseDups_cons, List.head?_cons, List.head?_cons]

/-- Behind the different ones in front of it an address stands where it occurs first. -/
theorem exists_eraseDups_append_cons {front back : List String} {address : String}
    (h : address ∉ front) :
    ∃ later, (front ++ address :: back).eraseDups = front.eraseDups ++ address :: later := by
  rw [List.eraseDups_append, List.removeAll, List.filter_cons_of_pos (by simpa using h),
    List.eraseDups_cons]
  exact ⟨_, rfl⟩

/-! ## The two readings -/

theorem strings?_ne_some_nil (rule : String) (s : Session) :
    ((Bound.strings? rule).run s).1 ≠ some [] := by
  have hitems : ∀ items : List String, (if items.isEmpty then none else some items) ≠ some [] := by
    intro items
    cases items <;> simp
  exact hitems _

theorem urls?_run_of_blank (h : Text.isBlankText rule = true) :
    (Bound.urls? rule).run s = ((pageUrl? s.context).map fun url => [url], s) := by
  unfold Bound.urls?
  rw [if_pos h]
  rfl

theorem url?_run_of_blank (h : Text.isBlankText rule = true) :
    (Bound.url? rule).run s = (pageUrl? s.context, s) := by
  unfold Bound.url?
  rw [if_pos h]
  rfl

/-- The page's address is still the one that the evaluation started with. -/
theorem urls?_run (h : Text.isBlankText rule = false) :
    (Bound.urls? rule).run s =
      (((Bound.strings? rule).run s).1.map fun items =>
        (items.map (addressOf s.context.baseUrl)).eraseDups, ((Bound.strings? rule).run s).2) := by
  have hbase := (strings?_keepsFrame rule s).baseUrl
  unfold Bound.urls?
  rw [if_neg (by simp [h]), ← hbase, addressOf_eq]
  rfl

theorem url?_run (h : Text.isBlankText rule = false) :
    (Bound.url? rule).run s =
      ((((Bound.strings? rule).run s).1.bind List.head?).map (addressOf s.context.baseUrl),
        ((Bound.strings? rule).run s).2) := by
  have hbase := (strings?_keepsFrame rule s).baseUrl
  unfold Bound.url?
  rw [if_neg (by simp [h]), ← hbase, addressOf_eq]
  rfl

theorem pageUrl?_eq (context : Context) :
    pageUrl? context = if context.baseUrl = "" then none else some context.baseUrl := by
  simp [pageUrl?]

/-- The first address is the first of the list. -/
theorem url?_eq_head? (rule : String) (s : Session) :
    ((Bound.url? rule).run s).1 = ((Bound.urls? rule).run s).1.bind List.head? := by
  cases hblank : Text.isBlankText rule with
  | true =>
      rw [url?_run_of_blank hblank, urls?_run_of_blank hblank]
      cases pageUrl? s.context <;> rfl
  | false =>
      rw [url?_run hblank, urls?_run hblank]
      cases ((Bound.strings? rule).run s).1 with
      | none => rfl
      | some items =>
          rw [Option.bind_some, Option.map_some, Option.bind_some, head?_eraseDups, List.head?_map]

/-- A list of addresses is not empty. -/
theorem urls?_ne_some_nil (rule : String) (s : Session) :
    ((Bound.urls? rule).run s).1 ≠ some [] := by
  cases hblank : Text.isBlankText rule with
  | true =>
      rw [urls?_run_of_blank hblank]
      cases pageUrl? s.context <;> simp
  | false =>
      have hitems := strings?_ne_some_nil rule s
      rw [urls?_run hblank]
      cases hstrings : ((Bound.strings? rule).run s).1 with
      | none => simp
      | some items =>
          cases items with
          | nil => exact absurd hstrings hitems
          | cons first rest => simp [List.eraseDups_cons]

theorem url?_eq_none_iff (rule : String) (s : Session) :
    ((Bound.url? rule).run s).1 = none ↔ ((Bound.urls? rule).run s).1 = none := by
  have hnonempty := urls?_ne_some_nil rule s
  rw [url?_eq_head?]
  cases hurls : ((Bound.urls? rule).run s).1 with
  | none => simp
  | some addresses =>
      cases addresses with
      | nil => exact absurd hurls hnonempty
      | cons first rest => simp

/-- The first address is the first of the list, and the list is the texts of the rule as
addresses, each where it occurs first; a blank rule stands for the page's address. -/
theorem addresses_are_first_occurrences (rule : String) (s : Session) :
    let url := ((Bound.url? rule).run s).1
    let urls := ((Bound.urls? rule).run s).1
    let base := s.context.baseUrl
    (url = urls.bind List.head? ∧ (url = none ↔ urls = none)) ∧
    (Text.isBlankText rule = true →
      url = (if base = "" then none else some base) ∧
        urls = if base = "" then none else some [base]) ∧
    (Text.isBlankText rule = false →
      urls = (((Bound.strings? rule).run s).1.map fun items =>
          (items.map (addressOf base)).eraseDups) ∧
        ∀ kept, urls = some kept → ∃ items, ((Bound.strings? rule).run s).1 = some items ∧
          kept.Nodup ∧ (∀ item ∈ items, addressOf base item ∈ kept) ∧
          kept.Sublist (items.map (addressOf base)) ∧
          ∀ front address back, items.map (addressOf base) = front ++ address :: back →
            address ∉ front → ∃ later, kept = front.eraseDups ++ address :: later) := by
  intro url urls base
  refine ⟨⟨url?_eq_head? rule s, url?_eq_none_iff rule s⟩, fun hblank => ?_, fun hnonblank => ?_⟩
  · have hurl : url = pageUrl? s.context := congrArg Prod.fst (url?_run_of_blank hblank)
    have hurls : urls = (pageUrl? s.context).map fun url => [url] :=
      congrArg Prod.fst (urls?_run_of_blank hblank)
    rw [hurl, hurls, pageUrl?_eq]
    refine ⟨rfl, ?_⟩
    split_ifs <;> rfl
  · have hurls : urls = ((Bound.strings? rule).run s).1.map fun items =>
        (items.map (addressOf base)).eraseDups := congrArg Prod.fst (urls?_run hnonblank)
    refine ⟨hurls, fun kept hkept => ?_⟩
    rw [hkept, eq_comm, Option.map_eq_some_iff] at hurls
    obtain ⟨items, hitems, rfl⟩ := hurls
    refine ⟨items, hitems, nodup_firstsBy_id _, fun item hitem => ?_, firstsBy_sublist id _,
      fun front address back hlist hfirst => ?_⟩
    · exact List.mem_eraseDups.2 (List.mem_map_of_mem hitem)
    · rw [hlist]
      exact exists_eraseDups_append_cons hfirst

/-- Two paragraphs with relative addresses, taken twice, and the address of their page. -/
theorem addresses_are_first_occurrences_twice :
    let paragraph := fun text => Markup.Tree.element ⟨.html, "p", []⟩ [.text text]
    let page : Markup.Element :=
      { tag := ⟨.html, "body", []⟩, children := [paragraph "x", paragraph "y"], above := [] }
    let s : Session := { context := { baseUrl := "s://h/a" }, content := .element page }
    let rule := "tag.p@text&&tag.p@text"
    Text.isBlankText " " = true ∧ ((Bound.urls? " ").run s).1 = some ["s://h/a"] ∧
    Text.isBlankText rule = false ∧
    ((Bound.strings? rule).run s).1 = some ["x", "y", "x", "y"] ∧
    ((Bound.urls? rule).run s).1 = some ["s://h/x", "s://h/y"] ∧
    ((Bound.url? rule).run s).1 = some "s://h/x" ∧
    ["x", "y", "x", "y"].map (addressOf "s://h/a") =
      ["s://h/x"] ++ "s://h/y" :: ["s://h/x", "s://h/y"] ∧
    "s://h/y" ∉ ["s://h/x"] ∧
    ∃ later, ["s://h/x", "s://h/y"] = ["s://h/x"].eraseDups ++ "s://h/y" :: later := by
  intro paragraph page s rule
  have hblank : Text.isBlankText " " = true := by decide
  have hnonblank : Text.isBlankText rule = false := by decide
  have hstrings : ((Bound.strings? rule).run s).1 = some ["x", "y", "x", "y"] := by
    decide +kernel
  have haddresses : ["x", "y", "x", "y"].map (addressOf "s://h/a") =
      ["s://h/x"] ++ "s://h/y" :: ["s://h/x", "s://h/y"] := by
    decide +kernel
  have hother : "s://h/y" ∉ ["s://h/x"] := by decide
  obtain ⟨-, hpage, -⟩ := addresses_are_first_occurrences " " s
  obtain ⟨⟨hfirst, -⟩, -, hlist⟩ := addresses_are_first_occurrences rule s
  obtain ⟨hurls, hkept⟩ := hlist hnonblank
  have hfound : ((Bound.urls? rule).run s).1 = some ["s://h/x", "s://h/y"] := by
    rw [hurls, hstrings]
    change some ((["x", "y", "x", "y"].map (addressOf "s://h/a")).eraseDups) = _
    rw [haddresses]
    decide
  obtain ⟨items, hitems, -, -, -, hplaces⟩ := hkept _ hfound
  obtain rfl : ["x", "y", "x", "y"] = items := Option.some.inj (hstrings.symm.trans hitems)
  rw [hfound] at hfirst
  exact ⟨hblank, (hpage hblank).2, hnonblank, hstrings, hfound, hfirst,
    haddresses, hother, hplaces _ _ _ haddresses hother⟩

end BookRules.Finding
