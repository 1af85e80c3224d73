import BookRules.Proofs.Fetch.Requests
import BookRules.Proofs.List.Firsts
import Mathlib.Data.List.Infix
import Mathlib.Data.List.Nodup
import Mathlib.Data.List.Perm.Subperm
import Mathlib.Data.List.TakeWhile

/-!
# In which order the pages of a list of chapters are read

From a place and what is linked from each place, the places are put in an order: the
start, then what is linked from it, then what is linked from these, and so on, each place
where it is found first.  `within n` are the places at most `n` links away in this order.
Going one link further only adds places at the end, so a list that has grown by one place
after the other, each the first new one that is linked from the list, is a beginning of
the order; and once nothing new is linked from a list, it holds all that can be reached.

The walk over a list of chapters keeps the addresses that wait in a queue, in which an
address may stand more than once and may have been visited meanwhile.  What counts is the
first new address in the queue: together with the pages visited, the queue is what is
linked from these pages, each address where it comes first.  So the pages are asked for
in breadth-first order, and when no page fails and the limit is not reached, the walk
only ends when nothing new can be reached.
-/

namespace BookRules.BreadthFirst

variable {α : Type} [DecidableEq α] {links : α → List α} {start : α}

/-- The start, and what is linked from places in their order, each once. -/
def expand (links : α → List α) (start : α) (places : List α) : List α :=
  firstsBy id (start :: places.flatMap links)

/-- The places at most `n` links away, the nearest ones first. -/
def within (links : α → List α) (start : α) : Nat → List α
  | 0 => [start]
  | n + 1 => expand links start (within links start n)

/-- The first `count` places; fewer when there are no more. -/
def order (links : α → List α) (start : α) (count : Nat) : List α :=
  (within links start count).take count

/-- A place that is reached along at most `n` links. -/
inductive Reached (links : α → List α) (start : α) : Nat → α → Prop
  | start (n : Nat) : Reached links start n start
  | link {n : Nat} {x y : α} (hx : Reached links start n x) (hy : y ∈ links x) :
      Reached links start (n + 1) y

/-! ## Expanding -/

theorem mem_expand {places : List α} {x : α} :
    x ∈ expand links start places ↔ x = start ∨ ∃ y ∈ places, x ∈ links y := by
  simp [expand, mem_firstsBy_id]

theorem nodup_expand (places : List α) : (expand links start places).Nodup :=
  nodup_firstsBy_id _

theorem expand_isPrefix {xs ys : List α} (h : xs <+: ys) :
    expand links start xs <+: expand links start ys := by
  obtain ⟨rest, rfl⟩ := h
  apply firstsBy_isPrefix
  rw [List.flatMap_append, ← List.cons_append]
  exact List.prefix_append _ _

theorem singleton_isPrefix_expand (places : List α) : [start] <+: expand links start places := by
  unfold expand
  rw [firstsBy_cons]
  exact List.prefix_append [start] _

/-! ## The places within some links -/

theorem nodup_within (n : Nat) : (within links start n).Nodup := by
  cases n with
  | zero => exact List.nodup_cons.2 ⟨List.not_mem_nil, List.nodup_nil⟩
  | succ n => exact nodup_expand _

theorem within_isPrefix_succ (links : α → List α) (start : α) (n : Nat) :
    within links start n <+: within links start (n + 1) := by
  induction n with
  | zero => exact singleton_isPrefix_expand _
  | succ n ih => exact expand_isPrefix ih

theorem within_isPrefix {m n : Nat} (h : m ≤ n) :
    within links start m <+: within links start n := by
  induction h with
  | refl => exact List.prefix_rfl
  | step _ ih => exact ih.trans (within_isPrefix_succ links start _)

theorem mem_within_iff {n : Nat} {x : α} :
    x ∈ within links start n ↔ Reached links start n x := by
  induction n generalizing x with
  | zero =>
      rw [within, List.mem_singleton]
      constructor
      · rintro rfl
        exact Reached.start 0
      · intro h
        cases h
        rfl
  | succ n ih =>
      rw [within, mem_expand]
      constructor
      · rintro (rfl | ⟨y, hy, hx⟩)
        · exact Reached.start (n + 1)
        · exact Reached.link (ih.1 hy) hx
      · intro h
        cases h with
        | start => exact Or.inl rfl
        | link hy hx => exact Or.inr ⟨_, ih.2 hy, hx⟩

/-- Every link further brings a new place, or nothing new can be reached. -/
theorem lt_length_within_or_closed (links : α → List α) (start : α) (n : Nat) :
    n < (within links start n).length ∨
      ∀ m, within links start m <+: within links start n := by
  induction n with
  | zero => exact Or.inl Nat.zero_lt_one
  | succ n ih =>
      rcases ih with hlt | hclosed
      · rcases Nat.lt_or_eq_of_le (within_isPrefix_succ links start n).length_le with hmore | hsame
        · left
          omega
        · -- the same places with one link more, hence with any number of links more
          have heq : within links start n = within links start (n + 1) :=
            (within_isPrefix_succ links start n).eq_of_length hsame
          right
          intro m
          induction m with
          | zero => exact within_isPrefix (Nat.zero_le (n + 1))
          | succ m ihm => exact expand_isPrefix (heq ▸ ihm)
      · right
        intro m
        exact (hclosed m).trans (within_isPrefix_succ links start n)

/-! ## Lists that grow in this order -/

theorem within_isPrefix_of_closed {places : List α} (h : expand links start places = places)
    (n : Nat) : within links start n <+: places := by
  induction n with
  | zero => exact h ▸ singleton_isPrefix_expand places
  | succ n ih => exact h ▸ expand_isPrefix ih

/-- The first new place that is linked from a beginning of the order comes next in it. -/
theorem append_isPrefix_within {places : List α} {next : α}
    (hplaces : places <+: within links start places.length)
    (hnext : places ++ [next] <+: expand links start places) :
    places ++ [next] <+: within links start (places ++ [next]).length := by
  rw [List.length_append, List.length_singleton]
  exact hnext.trans (expand_isPrefix hplaces)

theorem eq_order_of_isPrefix {places : List α}
    (h : places <+: within links start places.length) :
    places = order links start places.length :=
  List.prefix_iff_eq_take.1 h

theorem eq_order_of_closed {places : List α} {count : Nat}
    (h : places <+: within links start places.length)
    (hclosed : expand links start places = places) (hcount : places.length ≤ count) :
    places = order links start count := by
  have hall : within links start count = places :=
    (within_isPrefix_of_closed hclosed count).eq_of_length_le
      ((h.trans (within_isPrefix hcount)).length_le)
  unfold order
  rw [hall, List.take_of_length_le hcount]

/-! ## Walks with a queue -/

/-- The places visited begin the order, and the ones that wait are what is linked from
them: what is new in the queue comes next in the order. -/
structure Explored (links : α → List α) (start : α) (visited waiting : List α) : Prop where
  isPrefix : visited <+: within links start visited.length
  queue : firstsBy id (visited ++ waiting) = expand links start visited

theorem explored_nil (links : α → List α) (start : α) : Explored links start [] [start] where
  isPrefix := List.nil_prefix
  queue := rfl

variable {visited waiting passed rest fresh : List α} {next : α}

theorem Explored.queue_of_passed (h : Explored links start visited (passed ++ waiting))
    (hpassed : ∀ x ∈ passed, x ∈ visited) :
    firstsBy id (visited ++ waiting) = expand links start visited := by
  have hknown : firstsBy id (visited ++ passed) = firstsBy id visited :=
    firstsBy_append_of_known fun x hx => by simpa using hpassed x hx
  rw [← h.queue, ← List.append_assoc]
  exact (firstsBy_append_congr waiting hknown).symm

theorem Explored.append_isPrefix (h : Explored links start visited (passed ++ next :: rest))
    (hpassed : ∀ x ∈ passed, x ∈ visited) (hnodup : (visited ++ [next]).Nodup) :
    visited ++ [next] <+: within links start (visited ++ [next]).length := by
  have hkept : firstsBy id (visited ++ [next]) = visited ++ [next] :=
    firstsBy_eq_self (by simpa using hnodup)
  have hnext : firstsBy id (visited ++ [next]) <+: firstsBy id (visited ++ [next] ++ rest) :=
    firstsBy_isPrefix (List.prefix_append _ rest)
  rw [hkept, ← List.append_cons, h.queue_of_passed hpassed] at hnext
  exact append_isPrefix_within h.isPrefix hnext

theorem Explored.visit (h : Explored links start visited (passed ++ next :: rest))
    (hpassed : ∀ x ∈ passed, x ∈ visited) (hnodup : (visited ++ [next]).Nodup)
    {p : α → Bool} (hfresh : fresh = (links next).filter p)
    (hp : ∀ x, p x = false → x ∈ visited ++ [next]) :
    Explored links start (visited ++ [next]) (rest ++ fresh) where
  isPrefix := h.append_isPrefix hpassed hnodup
  queue := by
    have hlinks : firstsBy id (visited ++ next :: rest ++ fresh) =
        firstsBy id (visited ++ next :: rest ++ links next) := by
      rw [hfresh]
      apply firstsBy_append_filter
      intro x _ hx
      have hmem := hp x hx
      simp only [List.mem_append, List.mem_singleton] at hmem
      rcases hmem with hmem | rfl <;> simp [*]
    calc firstsBy id (visited ++ [next] ++ (rest ++ fresh))
        = firstsBy id (visited ++ next :: rest ++ fresh) := by simp
      _ = firstsBy id (visited ++ next :: rest ++ links next) := hlinks
      _ = firstsBy id (start :: visited.flatMap links ++ links next) :=
          firstsBy_append_congr (links next) (h.queue_of_passed hpassed)
      _ = expand links start (visited ++ [next]) := by simp [expand]

theorem Explored.closed (h : Explored links start visited waiting) (hnodup : visited.Nodup)
    (hwaiting : ∀ x ∈ waiting, x ∈ visited) : expand links start visited = visited := by
  rw [← h.queue, firstsBy_append_of_known (fun x hx => by simpa using hwaiting x hx)]
  exact firstsBy_eq_self (by simpa using hnodup)

theorem nodup_order (count : Nat) : (order links start count).Nodup :=
  (nodup_within count).sublist (List.take_sublist _ _)

theorem reached_of_mem_order {count : Nat} {x : α} (h : x ∈ order links start count) :
    Reached links start count x :=
  mem_within_iff.1 (List.mem_of_mem_take h)

theorem mem_order_of_length_lt {count n : Nat} {x : α}
    (hlt : (order links start count).length < count) (hx : Reached links start n x) :
    x ∈ order links start count := by
  have hshort : (within links start count).length < count := by
    unfold order at hlt
    rw [List.length_take] at hlt
    omega
  have hall : order links start count = within links start count :=
    List.take_of_length_le (Nat.le_of_lt hshort)
  rcases lt_length_within_or_closed links start count with hlong | hclosed
  · omega
  · rw [hall]
    exact (hclosed n).subset (mem_within_iff.2 hx)

end BookRules.BreadthFirst

namespace BookRules

open BreadthFirst (Explored Reached order)

variable {transport : Transport} {source : Source} {pages : List String} {sent : List Request}
  {links : String → List String} {start pageUrl : String}

/-! ## Where pages link to -/

/-- A map that says of every page that was read where it links to. -/
def Charts (transport : Transport) (source : Source) (pages : List String) (sent : List Request)
    (links : String → List String) : Prop :=
  ∀ pageUrl request body, (pageUrl, request, Except.ok body) ∈ pages.zip (transport.log sent) →
    links pageUrl = (Page.toc source body request.url).nextUrls

/-- Where a page links to on a site that always gives the same answer to a request. -/
def siteLinks (answers : Request → Except Fault String) (source : Source) (pageUrl : String) :
    List String :=
  match Request.forSource source pageUrl with
  | .error _ => []
  | .ok request =>
    match answers request with
    | .error _ => []
    | .ok body => (Page.toc source body request.url).nextUrls

theorem charts_siteLinks {answers : Request → Except Fault String}
    (hanswers : ∀ earlier request, (transport earlier request).body = answers request)
    (hasks : AsksFor source pages sent) :
    Charts transport source pages sent (siteLinks answers source) := by
  intro pageUrl request body hmem
  obtain ⟨i, hi, hentry⟩ := List.mem_iff_getElem.1 hmem
  rw [List.length_zip, Transport.length_log] at hi
  rw [List.getElem_zip] at hentry
  obtain ⟨hpage, hlog⟩ := Prod.mk.inj hentry
  have hasked : Request.forSource source pages[i] = .ok sent[i] := by
    have hall := congrArg (·[i]?) hasks
    simpa [show i < pages.length by omega, show i < sent.length by omega] using hall
  simp only [Transport.log, List.getElem_mapIdx, Prod.mk.injEq, hanswers] at hlog
  obtain ⟨rfl, hbody⟩ := hlog
  unfold siteLinks
  rw [← hpage, hasked]
  simp only [hbody]

theorem exists_charts (transport : Transport) (source : Source) (sent : List Request)
    (hnodup : pages.Nodup) : ∃ links, Charts transport source pages sent links := by
  suffices h : ∀ (entries : List (Request × Except Fault String)),
      ∃ links : String → List String, ∀ pageUrl request body,
        (pageUrl, request, Except.ok body) ∈ pages.zip entries →
          links pageUrl = (Page.toc source body request.url).nextUrls from h _
  induction pages with
  | nil => exact fun entries => ⟨fun _ => [], by simp⟩
  | cons first pages ih =>
      rw [List.nodup_cons] at hnodup
      intro entries
      cases entries with
      | nil => exact ⟨fun _ => [], by simp⟩
      | cons entry entries =>
          obtain ⟨links, hlinks⟩ := ih hnodup.2 entries
          obtain ⟨asked, answer⟩ := entry
          refine ⟨Function.update links first
            ((answer.map fun body => (Page.toc source body asked.url).nextUrls).toOption.getD []),
            ?_⟩
          intro pageUrl request body hmem
          rw [List.zip_cons_cons, List.mem_cons] at hmem
          rcases hmem with heq | hmem
          · obtain ⟨rfl, rfl, rfl⟩ : pageUrl = first ∧ request = asked ∧ Except.ok body = answer := by
              simpa using heq
            rw [Function.update_self]
            rfl
          · have hne : pageUrl ≠ first := by
              rintro rfl
              exact hnodup.1 (List.of_mem_zip hmem).1
            rw [Function.update_of_ne hne]
            exact hlinks pageUrl request body hmem

theorem Charts.of_append {request : Request}
    (h : Charts transport source (pages ++ [pageUrl]) (sent ++ [request]) links)
    (hlength : pages.length = sent.length) : Charts transport source pages sent links := by
  intro page asked body hmem
  apply h
  rw [Transport.log_append, List.zip_append (by rw [hlength, Transport.length_log])]
  exact List.mem_append_left _ hmem

theorem Charts.links_eq {request : Request} {body : String}
    (h : Charts transport source (pages ++ [pageUrl]) (sent ++ [request]) links)
    (hlength : pages.length = sent.length) (hbody : (transport sent request).body = .ok body) :
    links pageUrl = (Page.toc source body request.url).nextUrls := by
  apply h
  rw [Transport.log_append, List.zip_append (by rw [hlength, Transport.length_log]), hbody]
  exact List.mem_append_right _ (List.mem_singleton.2 rfl)

/-! ## The queue of the walk -/

theorem Trip.waiting_eq_of_next? {trip : Trip ChapterLink} {rest : List String}
    (h : trip.next? (tocRoute source) = some (pageUrl, rest)) :
    ∃ passed, trip.waiting = passed ++ pageUrl :: rest ∧ ∀ url ∈ passed, url ∈ trip.pages := by
  refine ⟨trip.waiting.takeWhile trip.visited.contains, ?_, ?_⟩
  · rw [← (Trip.of_next?_eq_some h).2.2, List.takeWhile_append_dropWhile]
  · intro url hurl
    simpa [Trip.pages] using List.mem_takeWhile_imp hurl

/-- While pages are read, pages and queue stand in breadth-first order. -/
theorem Trip.explored_of_reaches {trip : Trip ChapterLink}
    (h : (Trip.begin start).Reaches (tocRoute source) transport source trip)
    (hcharts : Charts transport source trip.pages trip.sent links) :
    Explored links start trip.pages trip.waiting := by
  induction h with
  | refl => exact BreadthFirst.explored_nil links start
  | @tail trip trip' hreaches hreads ih =>
      have hway := Trip.onItsWay_of_reaches hreaches
      obtain ⟨hnext, hrequest, hbody⟩ := hreads
      rename_i pageUrl rest request body
      rw [Trip.pages_afterPage] at hcharts ⊢
      have hlength : trip.pages.length = trip.sent.length := hway.asksFor.length_eq
      obtain ⟨passed, hwaiting, hpassed⟩ := Trip.waiting_eq_of_next? hnext
      have hexplored := ih (hcharts.of_append hlength)
      rw [hwaiting] at hexplored
      refine hexplored.visit hpassed (hway.nodup_append hnext)
        (congrArg _ (hcharts.links_eq hlength hbody).symm) ?_
      intro url hurl
      have hmem : url = pageUrl ∨ url ∈ trip.visited := by
        simpa [or_iff_not_imp_left] using hurl
      simpa [Trip.pages, or_comm] using hmem

theorem Trip.eq_order_of_next?_eq_none {last : Trip ChapterLink}
    (hreaches : (Trip.begin start).Reaches (tocRoute source) transport source last)
    (hcharts : Charts transport source last.pages last.sent links)
    (hnext : last.next? (tocRoute source) = none) :
    last.pages = order links start Limits.tocPages := by
  have hway := Trip.onItsWay_of_reaches hreaches
  have hexplored := Trip.explored_of_reaches hreaches hcharts
  unfold Trip.next? at hnext
  split at hnext
  next hlimit =>
    have hfull : last.pages.length = Limits.tocPages :=
      Nat.le_antisymm hway.length_le (by rw [Trip.length_pages]; exact hlimit)
    rw [← hfull]
    exact BreadthFirst.eq_order_of_isPrefix hexplored.isPrefix
  next =>
    split at hnext
    next hwaiting =>
      have hknown : ∀ url ∈ last.waiting, url ∈ last.pages := by
        intro url hurl
        have hvisited := List.dropWhile_eq_nil_iff.1 hwaiting url hurl
        simpa [Trip.pages] using hvisited
      exact BreadthFirst.eq_order_of_closed hexplored.isPrefix
        (hexplored.closed hway.nodup hknown) hway.length_le
    next => simp at hnext

theorem Trip.append_eq_order_of_next?_eq_some {last : Trip ChapterLink} {next : String}
    {rest : List String}
    (hreaches : (Trip.begin start).Reaches (tocRoute source) transport source last)
    (hcharts : Charts transport source last.pages last.sent links)
    (hnext : last.next? (tocRoute source) = some (next, rest)) :
    last.pages ++ [next] = order links start (last.pages ++ [next]).length := by
  obtain ⟨passed, hwaiting, hpassed⟩ := Trip.waiting_eq_of_next? hnext
  have hexplored := Trip.explored_of_reaches hreaches hcharts
  rw [hwaiting] at hexplored
  exact BreadthFirst.eq_order_of_isPrefix (hexplored.append_isPrefix hpassed
    ((Trip.onItsWay_of_reaches hreaches).nodup_append hnext))

/-! ## The pages that are asked for -/

/-- The pages asked for are the first ones in breadth-first order, all but the last one
were answered, and the walk ended for a reason. -/
structure WalksBreadthFirst (transport : Transport) (source : Source)
    (links : String → List String) (start : String) (pages : List String)
    (sent : List Request) : Prop where
  inOrder : pages = order links start pages.length
  answered : ∀ entry ∈ (transport.log sent).dropLast, ∃ body, entry.2 = .ok body
  /-- The limit is reached or no page is left, or the last page failed, or the next page
  cannot be asked for. -/
  reason : pages = order links start Limits.tocPages ∨
    (∃ request fault, (transport.log sent).getLast? = some (request, .error fault)) ∨
    ∃ next fault, order links start (pages.length + 1) = pages ++ [next] ∧
      Request.forSource source next = .error fault

theorem Trip.walksBreadthFirst_of_endsWith {last : Trip ChapterLink}
    {result : Except Fault (List ChapterLink) × List Request}
    (hreaches : (Trip.begin start).Reaches (tocRoute source) transport source last)
    (hends : last.EndsWith (tocRoute source) transport source result) :
    ∃ pages, AsksFor source pages result.2 ∧ pages.Nodup ∧ pages.length ≤ Limits.tocPages ∧
      ∀ links, Charts transport source pages result.2 links →
        WalksBreadthFirst transport source links start pages result.2 := by
  have hway := Trip.onItsWay_of_reaches hreaches
  have hanswered : ∀ entry ∈ (transport.log last.sent).dropLast, ∃ body, entry.2 = .ok body :=
    fun entry hentry => hway.answered entry (List.mem_of_mem_dropLast hentry)
  cases hends with
  | ended hnext hresult =>
      subst hresult
      refine ⟨last.pages, hway.asksFor, hway.nodup, hway.length_le, fun links hcharts => ?_⟩
      have horder := BreadthFirst.eq_order_of_isPrefix
        (Trip.explored_of_reaches hreaches hcharts).isPrefix
      exact ⟨horder, hanswered,
        Or.inl (Trip.eq_order_of_next?_eq_none hreaches hcharts hnext)⟩
  | @unrequestable next rest fault hnext hrequest hresult =>
      subst hresult
      refine ⟨last.pages, hway.asksFor, hway.nodup, hway.length_le, fun links hcharts => ?_⟩
      have horder := BreadthFirst.eq_order_of_isPrefix
        (Trip.explored_of_reaches hreaches hcharts).isPrefix
      have hmore := Trip.append_eq_order_of_next?_eq_some hreaches hcharts hnext
      rw [List.length_append, List.length_singleton] at hmore
      exact ⟨horder, hanswered, Or.inr (Or.inr ⟨next, fault, hmore.symm, hrequest⟩)⟩
  | @unanswered next rest request fault hnext hrequest hbody hresult =>
      subst hresult
      have hlog := Transport.log_append transport last.sent request
      rw [hbody] at hlog
      refine ⟨last.pages ++ [next], hway.asksFor.append hrequest, hway.nodup_append hnext,
        Trip.length_append_le hnext, fun links hcharts => ?_⟩
      have horder := Trip.append_eq_order_of_next?_eq_some hreaches
        (hcharts.of_append hway.asksFor.length_eq) hnext
      refine ⟨horder, ?_, Or.inr (Or.inl ⟨request, fault, ?_⟩)⟩
      · rw [hlog, List.dropLast_concat]
        exact hway.answered
      · rw [hlog, List.getLast?_concat]

theorem WalksBreadthFirst.count_eq_one {n : Nat}
    (h : WalksBreadthFirst transport source links start pages sent)
    (hanswered : ∀ entry ∈ transport.log sent, ∃ body, entry.2 = .ok body)
    (hlinks : ∀ n pageUrl, Reached links start n pageUrl →
      ∃ request, Request.forSource source pageUrl = .ok request)
    {site : List String} (hsite : site.length ≤ Limits.tocPages)
    (hall : ∀ n pageUrl, Reached links start n pageUrl → pageUrl ∈ site)
    (hreached : Reached links start n pageUrl) : pages.count pageUrl = 1 := by
  have hpages : pages = order links start Limits.tocPages := by
    rcases h.reason with hover | ⟨request, fault, hlast⟩ | ⟨next, fault, hnext, hrequest⟩
    · exact hover
    · obtain ⟨body, hbody⟩ := hanswered _ (List.mem_of_getLast? hlast)
      simp at hbody
    · have hmem : next ∈ order links start (pages.length + 1) := by
        rw [hnext]
        exact List.mem_append_right _ (List.mem_singleton.2 rfl)
      obtain ⟨request, hok⟩ := hlinks _ next (BreadthFirst.reached_of_mem_order hmem)
      rw [hrequest] at hok
      simp at hok
  have hnodup : pages.Nodup := hpages ▸ BreadthFirst.nodup_order Limits.tocPages
  have hmem : pageUrl ∈ pages := by
    by_cases hshort : pages.length < Limits.tocPages
    · rw [hpages] at hshort ⊢
      exact BreadthFirst.mem_order_of_length_lt hshort hreached
    · -- the pages fill the limit, so they are all that can be reached
      have hsub : pages ⊆ site := by
        intro url hurl
        rw [hpages] at hurl
        exact hall _ url (BreadthFirst.reached_of_mem_order hurl)
      have hperm : pages.Perm site :=
        (hnodup.subperm hsub).perm_of_length_le (by omega)
      exact hperm.mem_iff.2 (hall n pageUrl hreached)
  exact List.count_eq_one_of_mem hnodup hmem

/-- The pages of a list of chapters are asked for in breadth-first order.  Whatever the
source, the address and the answers are, no page is asked for twice and no more than the
limit; and when every page can be asked for and is answered and no more than the limit can
be reached, every page that can be reached is asked for exactly once. -/
theorem tableOfContents_asks_breadth_first (transport : Transport) (source : Source)
    (tocUrl : String) :
    ∃ pages : List String, ∃ sent : List Request,
      ((tableOfContents transport source tocUrl).run.run []).2 = sent ∧
      AsksFor source pages sent ∧ pages.Nodup ∧ pages.length ≤ Limits.tocPages ∧
      (∀ fault, Request.forSource source tocUrl = .error fault → pages = []) ∧
      (∃ links, Charts transport source pages sent links) ∧
      (∀ answers, (∀ earlier request, (transport earlier request).body = answers request) →
        Charts transport source pages sent (siteLinks answers source)) ∧
      ∀ first, Request.forSource source tocUrl = .ok first →
        ∀ links, Charts transport source pages sent links →
          WalksBreadthFirst transport source links first.url pages sent ∧
          ((∀ entry ∈ transport.log sent, ∃ body, entry.2 = .ok body) →
            (∀ n pageUrl, Reached links first.url n pageUrl →
              ∃ request, Request.forSource source pageUrl = .ok request) →
            (∃ site : List String, site.length ≤ Limits.tocPages ∧
              ∀ n pageUrl, Reached links first.url n pageUrl → pageUrl ∈ site) →
            ∀ n pageUrl, Reached links first.url n pageUrl → pages.count pageUrl = 1) := by
  cases hfirst : Request.forSource source tocUrl with
  | error fault =>
      rw [tableOfContents_of_error hfirst]
      refine ⟨[], [], rfl, rfl, List.nodup_nil, Nat.zero_le _, fun _ _ => rfl,
        exists_charts transport source [] List.nodup_nil,
        fun answers hanswers => charts_siteLinks hanswers rfl, ?_⟩
      simp
  | ok first =>
      rw [tableOfContents_of_ok hfirst, Prod.map_snd, id]
      obtain ⟨last, hreaches, hends⟩ := Trip.exists_endsWith (tocRoute source) transport source
        (Trip.begin first.url)
      obtain ⟨pages, hasks, hnodup, hlength, hwalks⟩ :=
        Trip.walksBreadthFirst_of_endsWith hreaches hends
      refine ⟨pages, _, rfl, hasks, hnodup, hlength, by simp,
        exists_charts transport source _ hnodup,
        fun answers hanswers => charts_siteLinks hanswers hasks, ?_⟩
      intro first' heq links hcharts
      obtain rfl : first = first' := Except.ok.inj heq
      refine ⟨hwalks links hcharts, ?_⟩
      rintro hanswered hlinks ⟨site, hsite, hall⟩ n pageUrl hreached
      exact (hwalks links hcharts).count_eq_one hanswered hlinks hsite hall hreached

end BookRules
