import BookRules.Proofs.Fetch.Trips

/-!
# When a walk fails

A walk fails on its first page when that page cannot be requested or fetched.  A later
page that cannot be fetched only ends the walk, but a later link that cannot be made a
request fails the whole walk, and what was read before is lost.  There is no other way
to fail: a walk that does neither gives what the pages it read gave.
-/

namespace BookRules

variable {α : Type} {route : Route α} {transport : Transport} {source : Source}
  {pageUrl : String} {fault : Fault}

/-- A walk that sets out for its first page. -/
def Trip.begin (pageUrl : String) : Trip α where
  waiting := [pageUrl]

/-- The first page cannot be requested or fetched. -/
def FirstPageFails (transport : Transport) (source : Source) (pageUrl : String) (fault : Fault) :
    Prop :=
  Request.forSource source pageUrl = .error fault ∨
    ∃ request, Request.forSource source pageUrl = .ok request ∧
      (transport [] request).body = .error fault

/-- After some pages the walk comes to a link that cannot be made a request. -/
def LinkFails (route : Route α) (transport : Transport) (source : Source) (pageUrl : String)
    (fault : Fault) : Prop :=
  ∃ trip, (Trip.begin pageUrl).Reaches route transport source trip ∧ trip.visited ≠ [] ∧
    trip.Unrequestable route source fault

namespace Trip

theorem ending_begin (route : Route α) (transport : Transport) (source : Source)
    (pageUrl : String) :
    (begin pageUrl).ending route transport source =
      (route.visit transport source route.limit [] [pageUrl]).run.run [] := by
  change ((route.visit transport source route.limit [] [pageUrl]).run.run []).map
    (·.map ([] ++ ·)) id = _
  obtain ⟨found, sent⟩ := (route.visit transport source route.limit [] [pageUrl]).run.run []
  cases found with
  | ok items => rfl
  | error fault => rfl

theorem next?_begin (hlimit : 0 < route.limit) (pageUrl : String) :
    (begin pageUrl).next? route = some (pageUrl, []) := by
  have hroom : ¬ route.limit ≤ (begin pageUrl : Trip α).visited.length := Nat.not_le_of_lt hlimit
  unfold next?
  rw [if_neg hroom]
  rfl

/-- Pages were read, or the walk is where it began. -/
theorem eq_of_reaches_of_visited_eq_nil {trip trip' : Trip α}
    (h : Reaches route transport source trip trip') (hvisited : trip'.visited = []) :
    trip' = trip := by
  rcases Relation.ReflTransGen.cases_tail h with heq | ⟨_, _, hreads⟩
  · exact heq
  · obtain ⟨-, -, -⟩ := hreads
    simp [afterPage] at hvisited

theorem unrequestable_begin_iff (hlimit : 0 < route.limit) :
    (begin pageUrl).Unrequestable route source fault ↔
      Request.forSource source pageUrl = .error fault := by
  unfold Unrequestable
  rw [next?_begin hlimit]
  simp

theorem unanswered_begin_iff (hlimit : 0 < route.limit) :
    (begin pageUrl).Unanswered route transport source fault ↔
      ∃ request, Request.forSource source pageUrl = .ok request ∧
        (transport [] request).body = .error fault := by
  unfold Unanswered
  rw [next?_begin hlimit]
  simp [begin]

/-- Where a walk stops it is over, or its next address cannot be made a request, or the
next page cannot be fetched. -/
theorem Stops.cases {last : Trip α} (h : Stops route transport source last) :
    last.next? route = none ∨ (∃ fault, Unrequestable route source last fault) ∨
      ∃ fault, Unanswered route transport source last fault := by
  rcases reads_or_stops route transport source last with ⟨trip', hreads⟩ | hstops
  · exact absurd hreads (h trip')
  · exact hstops

theorem outcome_begin_eq_error_iff (hlimit : 0 < route.limit) :
    (begin pageUrl).outcome route transport source = .error fault ↔
      FirstPageFails transport source pageUrl fault ∨
        LinkFails route transport source pageUrl fault := by
  constructor
  · intro hfails
    obtain ⟨last, hreaches, hstops⟩ := exists_stops route transport source (begin pageUrl)
    rw [outcome_eq_of_reaches hreaches] at hfails
    rcases hstops.cases with hover | ⟨fault', hlink⟩ | ⟨fault', hpage⟩
    · rw [outcome_of_next?_eq_none hover] at hfails
      simp at hfails
    · rw [outcome_of_unrequestable hlink] at hfails
      obtain rfl : fault' = fault := Except.error.inj hfails
      by_cases hvisited : last.visited = []
      · rw [eq_of_reaches_of_visited_eq_nil hreaches hvisited] at hlink
        exact Or.inl (Or.inl ((unrequestable_begin_iff hlimit).1 hlink))
      · exact Or.inr ⟨last, hreaches, hvisited, hlink⟩
    · rw [outcome_of_unanswered hpage] at hfails
      split at hfails
      next hempty =>
        obtain rfl : fault' = fault := Except.error.inj hfails
        have hvisited : last.visited = [] := List.isEmpty_iff.1 hempty
        rw [eq_of_reaches_of_visited_eq_nil hreaches hvisited] at hpage
        exact Or.inl (Or.inr ((unanswered_begin_iff hlimit).1 hpage))
      next => simp at hfails
  · rintro ((hrequest | hpage) | ⟨trip, hreaches, -, hlink⟩)
    · exact outcome_of_unrequestable ((unrequestable_begin_iff hlimit).2 hrequest)
    · rw [outcome_of_unanswered ((unanswered_begin_iff hlimit).2 hpage)]
      rfl
    · rw [outcome_eq_of_reaches hreaches]
      exact outcome_of_unrequestable hlink

/-- The walk comes to an end with pages read: no address is left, the limit is reached,
or a later page cannot be fetched. -/
def EndsWell (route : Route α) (transport : Transport) (source : Source) (last : Trip α) : Prop :=
  last.visited ≠ [] ∧
    (last.next? route = none ∨ ∃ fault, last.Unanswered route transport source fault)

theorem outcome_begin_eq_ok_iff (hlimit : 0 < route.limit) {items : List α} :
    (begin pageUrl).outcome route transport source = .ok items ↔
      ∃ last, (begin pageUrl).Reaches route transport source last ∧
        last.EndsWell route transport source ∧ items = last.gathered := by
  constructor
  · intro hgives
    obtain ⟨last, hreaches, hstops⟩ := exists_stops route transport source (begin pageUrl)
    rw [outcome_eq_of_reaches hreaches] at hgives
    rcases hstops.cases with hover | ⟨fault, hlink⟩ | ⟨fault, hpage⟩
    · have hvisited : last.visited ≠ [] := by
        intro hvisited
        rw [eq_of_reaches_of_visited_eq_nil hreaches hvisited, next?_begin hlimit] at hover
        simp at hover
      rw [outcome_of_next?_eq_none hover] at hgives
      exact ⟨last, hreaches, ⟨hvisited, Or.inl hover⟩, (Except.ok.inj hgives).symm⟩
    · rw [outcome_of_unrequestable hlink] at hgives
      simp at hgives
    · rw [outcome_of_unanswered hpage] at hgives
      split at hgives
      next => simp at hgives
      next hempty =>
        have hvisited : last.visited ≠ [] := by simpa using hempty
        exact ⟨last, hreaches, ⟨hvisited, Or.inr ⟨fault, hpage⟩⟩, (Except.ok.inj hgives).symm⟩
  · rintro ⟨last, hreaches, ⟨hvisited, hover | ⟨fault, hpage⟩⟩, rfl⟩
    · rw [outcome_eq_of_reaches hreaches, outcome_of_next?_eq_none hover]
    · rw [outcome_eq_of_reaches hreaches, outcome_of_unanswered hpage,
        if_neg (by simpa using hvisited)]

end Trip

/-! ## Lists of chapters and chapters -/

theorem tableOfContents_of_error {tocUrl : String}
    (hfirst : Request.forSource source tocUrl = .error fault) :
    (tableOfContents transport source tocUrl).run.run [] = (.error fault, []) := by
  unfold tableOfContents
  rw [hfirst]
  rfl

/-- The chapters of a book are those of the rows that the walk gathered. -/
theorem tableOfContents_of_ok {tocUrl : String} {first : Request}
    (hfirst : Request.forSource source tocUrl = .ok first) :
    (tableOfContents transport source tocUrl).run.run [] =
      ((Trip.begin first.url).ending (tocRoute source) transport source).map
        (·.map (TocWalk.chapters source)) id := by
  unfold tableOfContents
  rw [hfirst, Trip.ending_begin, ← TocWalk.visit_eq]
  exact Attempt.run_bind_pure (TocWalk.visit transport source Limits.tocPages [] [first.url])
    (TocWalk.chapters source) []

theorem run_tableOfContents_of_error {tocUrl : String}
    (hfirst : Request.forSource source tocUrl = .error fault) :
    ((tableOfContents transport source tocUrl).run.run []).1 = .error fault := by
  rw [tableOfContents_of_error hfirst]

theorem run_tableOfContents_of_ok {tocUrl : String} {first : Request}
    (hfirst : Request.forSource source tocUrl = .ok first) :
    ((tableOfContents transport source tocUrl).run.run []).1 =
      ((Trip.begin first.url).outcome (tocRoute source) transport source).map
        (TocWalk.chapters source) :=
  congrArg Prod.fst (tableOfContents_of_ok hfirst)

theorem chapterText_of_error {chapterUrl : String} {following : Option String}
    (hfirst : Request.forSource source chapterUrl = .error fault) :
    (chapterText transport source chapterUrl following).run.run [] = (.error fault, []) := by
  unfold chapterText
  rw [hfirst]
  rfl

/-- The text of a chapter from the texts of its pages. -/
def joinedText (source : Source) (chapterUrl : String) (texts : List String) : String :=
  Page.replaced source chapterUrl (Markup.Paragraphs.format ("\n".intercalate texts))

theorem chapterText_of_ok {chapterUrl : String} {following : Option String} {first : Request}
    (hfirst : Request.forSource source chapterUrl = .ok first) :
    (chapterText transport source chapterUrl following).run.run [] =
      ((Trip.begin first.url).ending (chapterRoute source following) transport source).map
        (·.map (joinedText source chapterUrl)) id := by
  unfold chapterText
  rw [hfirst, Trip.ending_begin, ← ChapterWalk.visit_eq _ List.not_mem_nil]
  exact Attempt.run_bind_pure
    (ChapterWalk.visit transport source following Limits.chapterPages [] first.url)
    (joinedText source chapterUrl) []

theorem run_chapterText_of_error {chapterUrl : String} {following : Option String}
    (hfirst : Request.forSource source chapterUrl = .error fault) :
    ((chapterText transport source chapterUrl following).run.run []).1 = .error fault := by
  rw [chapterText_of_error hfirst]

theorem run_chapterText_of_ok {chapterUrl : String} {following : Option String} {first : Request}
    (hfirst : Request.forSource source chapterUrl = .ok first) :
    ((chapterText transport source chapterUrl following).run.run []).1 =
      ((Trip.begin first.url).outcome (chapterRoute source following) transport source).map
        (joinedText source chapterUrl) :=
  congrArg Prod.fst (chapterText_of_ok hfirst)

/-- The address given cannot be made a request, or the first page fails, or a link does. -/
def WalkFails (route : Route α) (transport : Transport) (source : Source) (url : String)
    (fault : Fault) : Prop :=
  Request.forSource source url = .error fault ∨
    ∃ first, Request.forSource source url = .ok first ∧
      (FirstPageFails transport source first.url fault ∨
        LinkFails route transport source first.url fault)

/-- The walk reads its pages to an end, and `items` is what they gave. -/
def WalkGathers (route : Route α) (transport : Transport) (source : Source) (url : String)
    (items : List α) : Prop :=
  ∃ first last, Request.forSource source url = .ok first ∧
    (Trip.begin first.url).Reaches route transport source last ∧
    last.EndsWell route transport source ∧ items = last.gathered

/-- What is made of a walk fails when the walk does, and otherwise is made of what the
walk gathered. -/
theorem result_of_walk {β : Type} {url : String} {result : Except Fault β}
    {finish : List α → β} (hlimit : 0 < route.limit)
    (herror : ∀ fault, Request.forSource source url = .error fault → result = .error fault)
    (hok : ∀ first, Request.forSource source url = .ok first →
      result = ((Trip.begin first.url).outcome route transport source).map finish) :
    (∀ fault, result = .error fault ↔ WalkFails route transport source url fault) ∧
      ∀ b, result = .ok b ↔
        ∃ items, WalkGathers route transport source url items ∧ b = finish items := by
  cases hfirst : Request.forSource source url with
  | error fault =>
      rw [herror fault hfirst]
      constructor
      · intro fault'
        simp [WalkFails, hfirst]
      · intro b
        simp [WalkGathers, hfirst]
  | ok first =>
      rw [hok first hfirst]
      constructor
      · intro fault
        have hmap :
            ((Trip.begin first.url).outcome route transport source).map finish = .error fault ↔
              (Trip.begin first.url).outcome route transport source = .error fault := by
          cases (Trip.begin first.url).outcome route transport source <;> simp [Except.map]
        rw [hmap, Trip.outcome_begin_eq_error_iff hlimit]
        simp [WalkFails, hfirst]
      · intro b
        have hmap : ((Trip.begin first.url).outcome route transport source).map finish = .ok b ↔
            ∃ items, (Trip.begin first.url).outcome route transport source = .ok items ∧
              b = finish items := by
          cases (Trip.begin first.url).outcome route transport source <;>
            simp [Except.map, eq_comm]
        rw [hmap]
        simp only [Trip.outcome_begin_eq_ok_iff hlimit]
        simp [WalkGathers, hfirst]

/-- What fails a walk over pages, and what it gives when nothing does. -/
theorem walks_fail_iff (transport : Transport) (source : Source) :
    (∀ tocUrl : String,
      (∀ fault, ((tableOfContents transport source tocUrl).run.run []).1 = .error fault ↔
        WalkFails (tocRoute source) transport source tocUrl fault) ∧
      ∀ chapters, ((tableOfContents transport source tocUrl).run.run []).1 = .ok chapters ↔
        ∃ links, WalkGathers (tocRoute source) transport source tocUrl links ∧
          chapters = TocWalk.chapters source links) ∧
    ∀ (chapterUrl : String) (following : Option String),
      (∀ fault, ((chapterText transport source chapterUrl following).run.run []).1 =
          .error fault ↔
        WalkFails (chapterRoute source following) transport source chapterUrl fault) ∧
      ∀ text, ((chapterText transport source chapterUrl following).run.run []).1 = .ok text ↔
        ∃ texts, WalkGathers (chapterRoute source following) transport source chapterUrl texts ∧
          text = joinedText source chapterUrl texts := by
  constructor
  · intro tocUrl
    exact result_of_walk (show 0 < Limits.tocPages by decide)
      (fun _ => run_tableOfContents_of_error)
      (fun _ => run_tableOfContents_of_ok)
  · intro chapterUrl following
    exact result_of_walk (show 0 < Limits.chapterPages by decide)
      (fun _ => run_chapterText_of_error)
      (fun _ => run_chapterText_of_ok)

/-- A source whose address has no places below it: no link on its pages leads anywhere. -/
def opaqueShelf : Source where
  url := "book:shelf"
  toc :=
    { chapterList := some "list"
      chapterName := some "title"
      nextTocUrl := some "next" }

/-- A chapter and a link to more of them. -/
def listBody : String :=
  "\x7b\"list\":[\x7b\"title\":\"One\"\x7d],\"next\":\"/more\"\x7d"

def opaquePages : Transport :=
  .ofPages [("book:toc", listBody)]

/-- The first page was read and holds a chapter, and yet the walk gives nothing: the link
on the page is no address. -/
theorem not_gathers_of_stray_link :
    Request.forSource opaqueShelf "book:toc" = .ok { url := "book:toc" } ∧
    (opaquePages [] { url := "book:toc" }).body = .ok listBody ∧
    (Page.toc opaqueShelf listBody "book:toc").links.length = 1 ∧
    ¬ ∃ chapters,
      ((tableOfContents opaquePages opaqueShelf "book:toc").run.run []).1 = .ok chapters := by
  refine ⟨rfl, rfl, by decide +kernel, ?_⟩
  have hnothing :
      ((tableOfContents opaquePages opaqueShelf "book:toc").run.run []).1.toOption = none := by
    decide +kernel
  rintro ⟨chapters, hgives⟩
  rw [hgives] at hnothing
  cases hnothing

end BookRules
