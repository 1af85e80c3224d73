import BookRules.Page.SearchResults
import BookRules.Proofs.Finding.Independence
import BookRules.Proofs.Text.Trimming

/-!
# Books row by row

The rows of a page of search results are read one after the other in one session, which is
pointed at each row in turn.  Every field points the session at its row before it reads, so
all that a row needs of the session is the context and the depth; rules that bind no
variables leave these as they are.  A book is therefore the same whichever rows were read
before it, and the rows the other way round give the books the other way round.

The rule of a list may begin with a sign, and a `-` asks for the rows the other way round.
A `-` in front of a rule without a sign changes nothing else: what is left of the rule when
the sign is taken off is the rule.
-/

namespace BookRules

open Finding (Eval Keeps LeavesNoTrace Session)
open Rule (MentionsPut)

/-! ## Signs in front of list rules -/

theorem listRule_reverses_iff (rule : String) :
    (Page.listRule rule).2 = true ↔ rule.toList.head? = some '-' := by
  unfold Page.listRule
  split
  next rest hrule => simp [hrule]
  next rest hrule => simp [hrule]
  next hminus _ =>
    constructor
    · simp
    · intro hhead
      obtain ⟨rest, hrest⟩ := List.head?_eq_some_iff.1 hhead
      exact absurd hrest (hminus rest)

theorem listRule_minus (list : String) :
    Page.listRule (Source.rule (some ("-" ++ list))) = (Source.rule (some list), true) := by
  have hrule : (Source.rule (some ("-" ++ list))).toList = '-' :: Text.trimEnd list.toList := by
    simp [Source.rule, Text.trimmed, Text.trim_cons (by decide : Text.isBlank '-' = false)]
  unfold Page.listRule
  rw [hrule]
  simp [Text.trimStart_trimEnd, Source.rule, Text.trimmed]

/-- A rule without a sign in front. -/
def Unsigned (rule : String) : Prop :=
  rule.toList.head? ≠ some '-' ∧ rule.toList.head? ≠ some '+'

theorem listRule_of_unsigned {rule : String} (h : Unsigned rule) :
    Page.listRule rule = (rule, false) := by
  unfold Page.listRule
  split
  next rest hrule => simp [Unsigned, hrule] at h
  next rest hrule => simp [Unsigned, hrule] at h
  next => rfl

/-! ## Fields of a row -/

/-- What a session is apart from the node it points at and what it remembers. -/
def Finding.Session.surroundings (s : Session) : Context × Nat :=
  (s.context, s.depth)

/-- No rule binds a variable. -/
def BindsNothing (fields : List (Option String)) : Prop :=
  ∀ field ∈ fields, ∀ rule ∈ field, ¬ MentionsPut rule.toList

variable {α : Type} {source : Source} {field : Option String} {node : Node}

/-- What points the session at its own node needs nothing of the node before. -/
theorem keeps_bindContent {m : Eval α} (hm : LeavesNoTrace m) (node : Node) :
    Keeps Session.surroundings (do Finding.bindContent node; m) := by
  intro s t hst
  obtain ⟨hcontext, hdepth⟩ := Prod.mk.inj hst
  have hsame : ({ s with content := node } : Session).forget =
      ({ t with content := node } : Session).forget := by
    simp [Session.forget, hcontext, hdepth]
  obtain ⟨hanswer, hafter⟩ := hm { s with content := node } { t with content := node } hsame
  obtain ⟨hcontext', -, hdepth'⟩ := Finding.Session.eq_of_forget_eq hafter
  exact ⟨hanswer, Prod.ext hcontext' hdepth'⟩

theorem not_mentionsPut_rule (h : ∀ rule ∈ field, ¬ MentionsPut rule.toList) :
    ¬ MentionsPut (Source.rule field).toList := by
  cases field with
  | none => decide
  | some rule =>
      rw [Source.rule, Text.trimmed, String.toList_ofList]
      exact fun hput => h rule rfl (hput.of_isInfix (Text.trim_isInfix rule.toList))

theorem text_keeps (h : ∀ rule ∈ field, ¬ MentionsPut rule.toList) (node : Node) :
    Keeps Session.surroundings (Page.text node field) := by
  unfold Page.text
  dsimp only
  split_ifs
  · exact Keeps.pure ""
  · exact (keeps_bindContent (Finding.string?_leavesNoTrace (not_mentionsPut_rule h)) node).map

theorem url?_keeps (h : ∀ rule ∈ field, ¬ MentionsPut rule.toList) (node : Node) :
    Keeps Session.surroundings (Page.url? node field) := by
  unfold Page.url?
  dsimp only
  split_ifs
  · exact Keeps.pure none
  · exact keeps_bindContent (Finding.url?_leavesNoTrace (not_mentionsPut_rule h)) node

/-! ## Rows -/

def SearchRules.rowFields (rules : SearchRules) : List (Option String) :=
  [rules.name, rules.author, rules.kind, rules.wordCount, rules.lastChapter, rules.intro,
    rules.coverUrl, rules.bookUrl]

theorem foundBook?_keeps (h : BindsNothing source.search.rowFields) (pageUrl : String)
    (row : Node) : Keeps Session.surroundings (Page.foundBook? source pageUrl row) := by
  have htext : ∀ field ∈ source.search.rowFields,
      Keeps Session.surroundings (Page.text row field) :=
    fun field hfield => text_keeps (h field hfield) row
  have hurl : ∀ field ∈ source.search.rowFields,
      Keeps Session.surroundings (Page.url? row field) :=
    fun field hfield => url?_keeps (h field hfield) row
  simp only [SearchRules.rowFields, List.forall_mem_cons] at htext hurl
  obtain ⟨hname, hauthor, hkind, hwordCount, hlastChapter, hintro, -⟩ := htext
  obtain ⟨-, -, -, -, -, -, hcoverUrl, hbookUrl, -⟩ := hurl
  unfold Page.foundBook?
  refine hname.bind fun name => ?_
  split_ifs
  · exact Keeps.pure none
  · exact hauthor.bind fun _ => hkind.bind fun _ => hwordCount.bind fun _ =>
      hlastChapter.bind fun _ => hintro.bind fun _ => hcoverUrl.bind fun _ => hbookUrl.map

/-! ## Pages of search results -/

/-- What rules can look up on a page of search results. -/
def searchContext (source : Source) (pageUrl keyword : String) (number : Nat) : Context :=
  ((Page.contextOf source pageUrl).put "key" keyword).put "page" (toString number)

/-- The rows of a page, before they are turned around. -/
def rowsFound (ctx : Context) (body list : String) : List Node :=
  Page.read ctx (Finding.elements (Node.parse body) list)

/-- The books of rows, each of which is read on its own. -/
def booksOf (source : Source) (ctx : Context) (pageUrl : String) (rows : List Node) :
    List FoundBook :=
  rows.filterMap fun row => Page.read ctx (Page.foundBook? source pageUrl row)

theorem searchResults_eq {list : String} {reversed : Bool}
    (hlist : Page.listRule (Source.rule source.search.bookList) = (list, reversed))
    (hlistPuts : ¬ MentionsPut list.toList) (hputs : BindsNothing source.search.rowFields)
    (body pageUrl keyword : String) (number : Nat) :
    let ctx := searchContext source pageUrl keyword number
    let rows := rowsFound ctx body list
    Page.searchResults source body pageUrl keyword number =
      booksOf source ctx pageUrl (if reversed then rows.reverse else rows) := by
  intro ctx rows
  have hrows : Keeps Session.surroundings (Finding.elements (Node.parse body) list) :=
    keeps_bindContent (Finding.elements_leavesNoTrace hlistPuts) (Node.parse body)
  have hafter : Session.surroundings
      ((Finding.elements (Node.parse body) list).run { context := ctx }).2 =
        Session.surroundings { context := ctx } :=
    (hrows { context := ctx } { context := ctx } rfl).2
  have hbooks : (((if reversed then rows.reverse else rows).mapM
      (Page.foundBook? source pageUrl)).run
        ((Finding.elements (Node.parse body) list).run { context := ctx }).2).1 =
      (if reversed then rows.reverse else rows).map fun row =>
        Page.read ctx (Page.foundBook? source pageUrl row) :=
    Keeps.answers_mapM (fun row _ => foundBook?_keeps hputs pageUrl row) hafter
  unfold Page.searchResults Page.foundBooks
  rw [hlist]
  change (((if reversed then rows.reverse else rows).mapM (Page.foundBook? source pageUrl)).run
    ((Finding.elements (Node.parse body) list).run { context := ctx }).2).1.filterMap id = _
  rw [hbooks, List.filterMap_map]
  rfl

def Source.withBookList (source : Source) (list : String) : Source :=
  { source with search := { source.search with bookList := some list } }

theorem booksOf_reverse (ctx : Context) (pageUrl : String) (rows : List Node) :
    booksOf source ctx pageUrl rows.reverse = (booksOf source ctx pageUrl rows).reverse :=
  List.filterMap_reverse

/-- A book depends on its own row only, and a `-` in front of the rule of the list turns the
books around and does nothing else. -/
theorem searchResults_minus {source : Source} {list : String}
    (hunsigned : Unsigned (Source.rule (some list))) (hlistPuts : ¬ MentionsPut list.toList)
    (hputs : BindsNothing source.search.rowFields) (body pageUrl keyword : String)
    (number : Nat) :
    let ctx := searchContext source pageUrl keyword number
    Page.searchResults (source.withBookList list) body pageUrl keyword number =
      booksOf source ctx pageUrl (rowsFound ctx body (Source.rule (some list))) ∧
    Page.searchResults (source.withBookList ("-" ++ list)) body pageUrl keyword number =
      (Page.searchResults (source.withBookList list) body pageUrl keyword number).reverse := by
  intro ctx
  have hrulePuts : ¬ MentionsPut (Source.rule (some list)).toList :=
    not_mentionsPut_rule (by simpa using hlistPuts)
  have hplain := @searchResults_eq (source.withBookList list) (Source.rule (some list)) false
    (listRule_of_unsigned hunsigned) hrulePuts hputs body pageUrl keyword number
  have hminus := @searchResults_eq (source.withBookList ("-" ++ list))
    (Source.rule (some list)) true (listRule_minus list) hrulePuts hputs body pageUrl keyword
    number
  refine ⟨hplain, ?_⟩
  rw [hplain, hminus]
  exact booksOf_reverse _ _ _

def namedShelf : Source where
  url := "book:shelf"
  search :=
    { name := some "name"
      author := some "by" }

/-- Two books, and between them a row without a name. -/
def shelfBody : String :=
  "\x7b\"items\":[\x7b\"name\":\"One\",\"by\":\"A\"\x7d,\x7b\"by\":\"B\"\x7d,\x7b\"name\":\"Two\"\x7d]\x7d"

theorem searchResults_minus_items :
    Unsigned (Source.rule (some "items")) ∧ ¬ MentionsPut "items".toList ∧
    BindsNothing namedShelf.search.rowFields ∧
    (Page.searchResults (namedShelf.withBookList ("-" ++ "items")) shelfBody "book:found" "dune"
      1).map FoundBook.name = ["Two", "One"] := by
  have hunsigned : Unsigned (Source.rule (some "items")) := by
    constructor <;> decide
  have hlistPuts : ¬ MentionsPut "items".toList := by decide
  have hputs : BindsNothing namedShelf.search.rowFields := by
    simp only [BindsNothing, SearchRules.rowFields, namedShelf, List.forall_mem_cons,
      Option.mem_def, Option.some.injEq, forall_eq', reduceCtorEq, false_implies, implies_true]
    decide
  have hplain : (Page.searchResults (namedShelf.withBookList "items") shelfBody "book:found"
      "dune" 1).map FoundBook.name = ["One", "Two"] := by decide +kernel
  refine ⟨hunsigned, hlistPuts, hputs, ?_⟩
  rw [(searchResults_minus hunsigned hlistPuts hputs shelfBody "book:found" "dune" 1).2,
    List.map_reverse, hplain]
  rfl

end BookRules
