import BookRules.Proofs.Fetch.Requests
import BookRules.Proofs.Finding.Stages
import BookRules.Proofs.List.Firsts
import BookRules.Proofs.Page.SearchRows
import Mathlib.Data.List.Nodup

/-!
# What becomes of the rows of a list of chapters

The chapters of a book are the titled rows of the pages that were read, page after page.
Rows whose address occurred before are left out on the way, across the pages, and only
after the last page the list is turned around, if its rule asks for that, and numbered.
So the rule with a `-` in front gives the same chapters in reverse order: it reads the
same rows of the same pages, which are asked for in the same order.
-/

namespace BookRules

variable {transport : Transport} {source : Source}

/-! ## The rows of a page -/

/-- The rows that have a title, read one after the other.  A row without an address of its
own stands for the page. -/
def titledRows (source : Source) (pageUrl : String) : List Node → Finding.Session → List ChapterLink
  | [], _ => []
  | row :: rows, session =>
    let title := (Page.text row source.toc.chapterName).run session
    if title.1 = "" then titledRows source pageUrl rows title.2
    else
      let address := (Page.url? row source.toc.chapterUrl).run title.2
      { title := title.1, url := address.1.getD pageUrl } ::
        titledRows source pageUrl rows address.2

def rowsOf (source : Source) (pageUrl body : String) : List ChapterLink :=
  let page := Node.parse body
  let list := (Page.listRule (Source.rule source.toc.chapterList)).1
  let next := (Page.urls page source.toc.nextTocUrl).run
    { context := Page.contextOf source pageUrl }
  let rows := (Finding.elements page list).run next.2
  titledRows source pageUrl rows.1 rows.2

theorem run_chapterLink? (pageUrl : String) (row : Node) (rows : List Node)
    (session : Finding.Session) :
    titledRows source pageUrl (row :: rows) session =
      ((Page.chapterLink? source pageUrl row).run session).1.toList ++
        titledRows source pageUrl rows ((Page.chapterLink? source pageUrl row).run session).2 := by
  unfold Page.chapterLink?
  rw [titledRows, Finding.run_bind]
  generalize (Page.text row source.toc.chapterName).run session = named
  obtain ⟨title, session⟩ := named
  dsimp only
  by_cases htitle : title = ""
  · subst htitle
    rfl
  · have hempty : title.isEmpty = false := by simpa using htitle
    rw [if_neg htitle, hempty, if_neg Bool.false_ne_true, Finding.run_bind, Finding.run_pure,
      Option.toList_some, List.singleton_append]

theorem run_mapM_chapterLink? (pageUrl : String) (rows : List Node) (session : Finding.Session) :
    ((rows.mapM (Page.chapterLink? source pageUrl)).run session).1.filterMap id =
      titledRows source pageUrl rows session := by
  induction rows generalizing session with
  | nil => rfl
  | cons row rows ih =>
      rw [List.mapM_cons, Finding.run_bind, Finding.run_bind, Finding.run_pure, run_chapterLink?,
        ← ih]
      cases ((Page.chapterLink? source pageUrl row).run session).1 with
      | none => rfl
      | some link => rfl

theorem links_toc (body pageUrl : String) :
    (Page.toc source body pageUrl).links = rowsOf source pageUrl body := by
  unfold Page.toc Page.read Page.tocFields rowsOf
  simp only [Finding.run_bind, Finding.run_pure, run_mapM_chapterLink?]

theorem gather_tocRoute (source : Source) :
    (fun (request, body) => (tocRoute source).gather request body) =
      fun ((request, body) : Request × String) => rowsOf source request.url body := by
  funext ⟨request, body⟩
  simp only [tocRoute_gather, links_toc]

theorem title_ne_of_mem_titledRows {pageUrl : String} {rows : List Node}
    {session : Finding.Session} {link : ChapterLink}
    (h : link ∈ titledRows source pageUrl rows session) : link.title ≠ "" := by
  induction rows generalizing session with
  | nil => simp [titledRows] at h
  | cons row rows ih =>
      rw [titledRows] at h
      generalize (Page.text row source.toc.chapterName).run session = named at h
      obtain ⟨title, session⟩ := named
      dsimp only at h
      split at h
      next => exact ih h
      next htitle =>
        rcases List.mem_cons.1 h with rfl | h
        · exact htitle
        · exact ih h

/-! ## Rows that are kept -/

theorem newLinks_eq_firstsBy (seen : List String) (links : List ChapterLink) :
    TocWalk.newLinks seen links =
      firstsBy ChapterLink.url (links.filter fun link => link.url ∉ seen) := by
  refine eq_firstsBy_of_scan TocWalk.newLinks (fun _ => rfl) (fun seen link rest => ?_) seen links
  rw [TocWalk.newLinks, List.contains_eq_mem]
  simp only [decide_eq_true_eq]

/-- The rows that a list of chapters is made of: each address once, if rows have addresses
of their own. -/
def keptRows (source : Source) (rows : List ChapterLink) : List ChapterLink :=
  if Source.rule source.toc.chapterUrl = "" then rows else firstsBy ChapterLink.url rows

/-- A list of chapters whose rule begins with a `-` is turned around. -/
def inListOrder (source : Source) (rows : List ChapterLink) : List ChapterLink :=
  if (Source.rule source.toc.chapterList).toList.head? = some '-' then rows.reverse else rows

theorem chapters_eq (source : Source) (rows : List ChapterLink) :
    TocWalk.chapters source rows =
      Chapter.number (inListOrder source (keptRows source rows)) := by
  have hall : TocWalk.newLinks [] rows = firstsBy ChapterLink.url rows := by
    simp [newLinks_eq_firstsBy]
  unfold TocWalk.chapters inListOrder keptRows
  simp only [hall, listRule_reverses_iff, String.isEmpty_iff]

theorem nodup_inListOrder (haddress : Source.rule source.toc.chapterUrl ≠ "")
    (rows : List ChapterLink) :
    ((inListOrder source (keptRows source rows)).map ChapterLink.url).Nodup := by
  unfold inListOrder keptRows
  rw [if_neg haddress]
  split_ifs
  · rw [List.map_reverse]
    exact List.nodup_reverse.2 (nodup_map_firstsBy _ rows)
  · exact nodup_map_firstsBy _ rows

/-! ## Numbered chapters -/

namespace Chapter

def renumber (chapters : List Chapter) : List Chapter :=
  chapters.mapIdx fun index chapter => { chapter with index }

/-- A chapter without its number. -/
def link (chapter : Chapter) : ChapterLink where
  title := chapter.title
  url := chapter.url

theorem map_link_number (links : List ChapterLink) : (number links).map link = links := by
  apply List.ext_getElem (by simp [number])
  intro i _ _
  simp [number, link]

theorem map_url_number (links : List ChapterLink) :
    (number links).map url = links.map ChapterLink.url := by
  conv_rhs => rw [← map_link_number links, List.map_map]
  rfl

theorem map_index_number (links : List ChapterLink) :
    (number links).map index = List.range links.length := by
  apply List.ext_getElem (by simp [number])
  intro i _ _
  simp [number]

theorem renumber_reverse_number (links : List ChapterLink) :
    renumber (number links).reverse = number links.reverse := by
  apply List.ext_getElem (by simp [number, renumber])
  intro i _ _
  simp [number, renumber]

end Chapter

/-! ## Rules that turn a list around -/

/-- A source with another rule for the rows of a list of chapters. -/
def Source.withChapterList (source : Source) (list : String) : Source :=
  { source with toc := { source.toc with chapterList := some list } }

theorem chapterList_withChapterList (source : Source) (list : String) :
    (source.withChapterList list).toc.chapterList = some list :=
  rfl

theorem TocWalk.visit_congr {a b : Source}
    (hrequest : ∀ url, Request.forSource a url = Request.forSource b url)
    (hpage : ∀ body pageUrl, Page.toc a body pageUrl = Page.toc b body pageUrl)
    (left : Nat) (visited queue : List String) :
    TocWalk.visit transport a left visited queue = TocWalk.visit transport b left visited queue := by
  induction left generalizing visited queue with
  | zero => rfl
  | succ left ih =>
      unfold TocWalk.visit walkPage?
      simp only [hrequest, hpage, ih]

/-- The rows of a page are found by the rule of the list without its sign. -/
theorem toc_congr (a b : Source) (hname : a.name = b.name) (hurl : a.url = b.url)
    (htitle : a.toc.chapterName = b.toc.chapterName)
    (haddress : a.toc.chapterUrl = b.toc.chapterUrl)
    (hnext : a.toc.nextTocUrl = b.toc.nextTocUrl)
    (hlist : (Page.listRule (Source.rule a.toc.chapterList)).1 =
      (Page.listRule (Source.rule b.toc.chapterList)).1)
    (body pageUrl : String) : Page.toc a body pageUrl = Page.toc b body pageUrl := by
  have hrow : Page.chapterLink? a pageUrl = Page.chapterLink? b pageUrl := by
    funext row
    unfold Page.chapterLink?
    rw [htitle, haddress]
  unfold Page.toc Page.tocFields Page.contextOf
  rw [hname, hurl, hnext, hlist, hrow]

theorem toc_withChapterList_minus {list : String} (h : Unsigned (Source.rule (some list)))
    (body pageUrl : String) :
    Page.toc (source.withChapterList ("-" ++ list)) body pageUrl =
      Page.toc (source.withChapterList list) body pageUrl := by
  have hlist : (Page.listRule (Source.rule
        (source.withChapterList ("-" ++ list)).toc.chapterList)).1 =
      (Page.listRule (Source.rule (source.withChapterList list).toc.chapterList)).1 := by
    rw [chapterList_withChapterList, chapterList_withChapterList, listRule_minus list,
      listRule_of_unsigned h]
  exact toc_congr (source.withChapterList ("-" ++ list)) (source.withChapterList list)
    rfl rfl rfl rfl rfl hlist body pageUrl

theorem forSource_congr {a b : Source} (hurl : a.url = b.url) (hheaders : a.headers = b.headers)
    (url : String) : Request.forSource a url = Request.forSource b url := by
  have hoptions : Request.withOptions a = Request.withOptions b := by
    funext resolved options
    cases options <;> simp only [Request.withOptions, hheaders]
  unfold Request.forSource Request.ofTarget
  rw [hurl, hoptions]

theorem forSource_withChapterList (list url : String) :
    Request.forSource (source.withChapterList list) url = Request.forSource source url := by
  have hurl : (source.withChapterList list).url = source.url := rfl
  have hheader : (source.withChapterList list).header = source.header := rfl
  have hheaders : (source.withChapterList list).headers = source.headers := by
    unfold Source.headers
    rw [hheader]
  exact forSource_congr hurl hheaders url

theorem chapters_withChapterList_minus {list : String} (h : Unsigned (Source.rule (some list)))
    (rows : List ChapterLink) :
    TocWalk.chapters (source.withChapterList ("-" ++ list)) rows =
      Chapter.renumber (TocWalk.chapters (source.withChapterList list) rows).reverse := by
  have hreversed : (Source.rule (some ("-" ++ list))).toList.head? = some '-' :=
    (listRule_reverses_iff _).1 (by rw [listRule_minus])
  have hkept : ∀ list, keptRows (source.withChapterList list) rows = keptRows source rows :=
    fun _ => rfl
  rw [chapters_eq, chapters_eq]
  unfold inListOrder
  rw [chapterList_withChapterList, chapterList_withChapterList, hkept, hkept, if_pos hreversed,
    if_neg h.1, Chapter.renumber_reverse_number]

theorem run_tableOfContents_minus {list : String} (h : Unsigned (Source.rule (some list)))
    (tocUrl : String) :
    (tableOfContents transport (source.withChapterList ("-" ++ list)) tocUrl).run.run [] =
      ((tableOfContents transport (source.withChapterList list) tocUrl).run.run []).map
        (·.map fun chapters => Chapter.renumber chapters.reverse) id := by
  have hrequest : ∀ url, Request.forSource (source.withChapterList ("-" ++ list)) url =
      Request.forSource (source.withChapterList list) url := by
    intro url
    rw [forSource_withChapterList, forSource_withChapterList]
  cases hfirst : Request.forSource (source.withChapterList list) tocUrl with
  | error fault =>
      rw [tableOfContents_of_error hfirst, tableOfContents_of_error ((hrequest tocUrl).trans hfirst)]
      rfl
  | ok first =>
      rw [tableOfContents_of_ok hfirst, tableOfContents_of_ok ((hrequest tocUrl).trans hfirst),
        Trip.ending_begin, Trip.ending_begin, ← TocWalk.visit_eq, ← TocWalk.visit_eq,
        tocRoute_limit, tocRoute_limit,
        TocWalk.visit_congr hrequest (toc_withChapterList_minus h)]
      generalize (TocWalk.visit _ _ _ _ _).run.run [] = walk
      obtain ⟨found, sent⟩ := walk
      cases found with
      | error fault => rfl
      | ok rows =>
          exact congrArg (Except.ok · , sent) (chapters_withChapterList_minus h rows)

/-- A list of chapters is made of the titled rows of the pages that were read, page after
page, and of nothing else: each address once, if rows have addresses of their own, turned
around if the rule of the list begins with a `-`, and numbered from 0.  The rule with a
`-` in front gives the same chapters the other way round. -/
theorem tableOfContents_keeps_rows (transport : Transport) (source : Source) (tocUrl : String) :
    (∀ chapters sent,
      (tableOfContents transport source tocUrl).run.run [] = (.ok chapters, sent) →
      ∃ rows : List ChapterLink,
        rows = ((transport.pagesRead sent).flatMap fun (request, body) =>
          rowsOf source request.url body) ∧
        (∀ row ∈ rows, row.title ≠ "") ∧
        chapters.map Chapter.link = inListOrder source (keptRows source rows) ∧
        chapters.map Chapter.index = List.range chapters.length ∧
        (Source.rule source.toc.chapterUrl ≠ "" → (chapters.map Chapter.url).Nodup)) ∧
    ∀ list, Unsigned (Source.rule (some list)) →
      (tableOfContents transport (source.withChapterList ("-" ++ list)) tocUrl).run.run [] =
        ((tableOfContents transport (source.withChapterList list) tocUrl).run.run []).map
          (·.map fun chapters => Chapter.renumber chapters.reverse) id := by
  constructor
  · intro chapters sent hrun
    cases hfirst : Request.forSource source tocUrl with
    | error fault =>
        rw [tableOfContents_of_error hfirst] at hrun
        exact absurd (Prod.mk.inj hrun).1 (by simp)
    | ok first =>
        rw [tableOfContents_of_ok hfirst] at hrun
        cases hending : (Trip.begin first.url).ending (tocRoute source) transport source with
        | mk found asked =>
            rw [hending] at hrun
            obtain ⟨hfound, rfl⟩ := Prod.mk.inj hrun
            cases found with
            | error fault => simp [Except.map] at hfound
            | ok rows =>
                obtain rfl : TocWalk.chapters source rows = chapters := Except.ok.inj hfound
                have hrows := Trip.eq_flatMap_pagesRead_of_ending hending
                rw [gather_tocRoute] at hrows
                refine ⟨rows, hrows, ?_, ?_, ?_, ?_⟩
                · intro row hrow
                  rw [hrows, List.mem_flatMap] at hrow
                  obtain ⟨page, -, hmem⟩ := hrow
                  exact title_ne_of_mem_titledRows hmem
                · rw [chapters_eq, Chapter.map_link_number]
                · rw [chapters_eq, Chapter.map_index_number]
                  simp only [Chapter.number, List.length_mapIdx]
                · intro haddress
                  rw [chapters_eq, Chapter.map_url_number]
                  exact nodup_inListOrder haddress rows
  · intro list hunsigned
    exact run_tableOfContents_minus hunsigned tocUrl

end BookRules
