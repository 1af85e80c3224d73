import BookRules.Proofs.Fetch.WalkFaults

/-!
# What a walk asks for

Every page that a walk visits is asked for once, when it is visited.  While pages are
read, the requests made are therefore the requests for the visited pages in their order,
all of them were answered, and what was gathered is what the answers gave.  Where the walk
ends, at most one request comes on top of these, the one that was not answered with a
page.
-/

namespace BookRules

variable {α : Type} {route : Route α} {transport : Transport} {source : Source}
  {pageUrl : String} {fault : Fault}

/-! ## Requests and their answers -/

/-- The requests that were made, each with its answer. -/
def Transport.log (transport : Transport) (sent : List Request) :
    List (Request × Except Fault String) :=
  sent.mapIdx fun i request => (request, (transport (sent.take i) request).body)

/-- The requests that were answered with a page, and the pages. -/
def Transport.pagesRead (transport : Transport) (sent : List Request) :
    List (Request × String) :=
  (transport.log sent).filterMap fun (request, answer) => answer.toOption.map (request, ·)

theorem Transport.length_log (transport : Transport) (sent : List Request) :
    (transport.log sent).length = sent.length :=
  List.length_mapIdx

theorem Transport.log_append (transport : Transport) (sent : List Request) (request : Request) :
    transport.log (sent ++ [request]) =
      transport.log sent ++ [(request, (transport sent request).body)] := by
  unfold Transport.log
  rw [List.mapIdx_append]
  congr 1
  · apply List.mapIdx_eq_mapIdx_iff.2
    intro i hi
    rw [List.take_append_of_le_length (Nat.le_of_lt hi)]
  · simp

theorem Transport.pagesRead_of_ok {sent : List Request} {request : Request} {body : String}
    (h : (transport sent request).body = .ok body) :
    transport.pagesRead (sent ++ [request]) = transport.pagesRead sent ++ [(request, body)] := by
  unfold Transport.pagesRead
  rw [Transport.log_append, List.filterMap_append, h]
  rfl

theorem Transport.pagesRead_of_error {sent : List Request} {request : Request}
    (h : (transport sent request).body = .error fault) :
    transport.pagesRead (sent ++ [request]) = transport.pagesRead sent := by
  unfold Transport.pagesRead
  rw [Transport.log_append, List.filterMap_append, h]
  exact List.append_nil _

/-- One request for every page, in their order. -/
def AsksFor (source : Source) (pages : List String) (sent : List Request) : Prop :=
  pages.map (Request.forSource source) = sent.map Except.ok

theorem AsksFor.length_eq {pages : List String} {sent : List Request}
    (h : AsksFor source pages sent) : pages.length = sent.length := by
  simpa using congrArg List.length h

theorem AsksFor.append {pages : List String} {sent : List Request} {request : Request}
    (h : AsksFor source pages sent) (hrequest : Request.forSource source pageUrl = .ok request) :
    AsksFor source (pages ++ [pageUrl]) (sent ++ [request]) := by
  unfold AsksFor at h ⊢
  rw [List.map_append, List.map_append, h, List.map_singleton, List.map_singleton, hrequest]

namespace Trip

def pages (trip : Trip α) : List String :=
  trip.visited.reverse

theorem length_pages (trip : Trip α) : trip.pages.length = trip.visited.length :=
  List.length_reverse

theorem pages_afterPage (trip : Trip α) {rest : List String} {request : Request}
    {body : String} :
    (trip.afterPage route pageUrl rest request body).pages = trip.pages ++ [pageUrl] :=
  List.reverse_cons

/-- What holds while pages are read. -/
structure OnItsWay (route : Route α) (transport : Transport) (source : Source) (trip : Trip α) :
    Prop where
  asksFor : AsksFor source trip.pages trip.sent
  nodup : trip.pages.Nodup
  length_le : trip.pages.length ≤ route.limit
  answered : ∀ entry ∈ transport.log trip.sent, ∃ body, entry.2 = .ok body
  gathered : trip.gathered =
    (transport.pagesRead trip.sent).flatMap fun (request, body) => route.gather request body

theorem onItsWay_begin (pageUrl : String) :
    (begin pageUrl).OnItsWay route transport source where
  asksFor := rfl
  nodup := List.nodup_nil
  length_le := Nat.zero_le _
  answered := by simp [begin, Transport.log]
  gathered := rfl

theorem of_next?_eq_some {trip : Trip α} {rest : List String}
    (h : trip.next? route = some (pageUrl, rest)) :
    trip.visited.length < route.limit ∧ pageUrl ∉ trip.visited ∧
      trip.waiting.dropWhile trip.visited.contains = pageUrl :: rest := by
  unfold next? at h
  split at h
  next => simp at h
  next hroom =>
    cases hwaiting : trip.waiting.dropWhile trip.visited.contains with
    | nil => simp [hwaiting] at h
    | cons next behind =>
        simp only [hwaiting, Option.some.injEq, Prod.mk.injEq] at h
        obtain ⟨rfl, rfl⟩ := h
        have hnew : trip.visited.contains next ≠ true := by
          have hhead := List.head?_dropWhile_not trip.visited.contains trip.waiting
          simpa [hwaiting] using hhead
        refine ⟨Nat.lt_of_not_le hroom, fun hmem => hnew ?_, rfl⟩
        simpa using hmem

theorem OnItsWay.nodup_append {trip : Trip α} {rest : List String}
    (h : trip.OnItsWay route transport source)
    (hnext : trip.next? route = some (pageUrl, rest)) : (trip.pages ++ [pageUrl]).Nodup := by
  have hnew : pageUrl ∉ trip.pages := by
    unfold pages
    rw [List.mem_reverse]
    exact (of_next?_eq_some hnext).2.1
  exact (List.nodup_cons.2 ⟨hnew, h.nodup⟩).perm (List.perm_append_singleton pageUrl _).symm

theorem length_append_le {trip : Trip α} {rest : List String}
    (hnext : trip.next? route = some (pageUrl, rest)) :
    (trip.pages ++ [pageUrl]).length ≤ route.limit := by
  rw [List.length_append, length_pages, List.length_singleton]
  exact (of_next?_eq_some hnext).1

theorem OnItsWay.of_reads {trip trip' : Trip α} (h : trip.OnItsWay route transport source)
    (hreads : Reads route transport source trip trip') :
    trip'.OnItsWay route transport source := by
  obtain ⟨hnext, hrequest, hbody⟩ := hreads
  constructor
  · rw [pages_afterPage]
    exact h.asksFor.append hrequest
  · rw [pages_afterPage]
    exact h.nodup_append hnext
  · rw [pages_afterPage]
    exact length_append_le hnext
  · intro entry hentry
    simp only [afterPage] at hentry
    rw [Transport.log_append, List.mem_append, List.mem_singleton] at hentry
    rcases hentry with hentry | rfl
    · exact h.answered entry hentry
    · exact ⟨_, hbody⟩
  · simp only [afterPage]
    rw [Transport.pagesRead_of_ok hbody, List.flatMap_append, h.gathered]
    simp

theorem onItsWay_of_reaches {trip : Trip α}
    (h : (begin pageUrl).Reaches route transport source trip) :
    trip.OnItsWay route transport source := by
  induction h with
  | refl => exact onItsWay_begin pageUrl
  | tail _ hreads ih => exact ih.of_reads hreads

/-! ## Where a walk ends -/

/-- The ways in which a walk ends after the last page that it read. -/
inductive EndsWith (route : Route α) (transport : Transport) (source : Source) (last : Trip α)
    (result : Except Fault (List α) × List Request) : Prop
  /-- No new page waits, or the limit is reached. -/
  | ended (hnext : last.next? route = none) (hresult : result = (.ok last.gathered, last.sent))
  /-- The next page cannot be asked for. -/
  | unrequestable {next : String} {rest : List String} {fault : Fault}
      (hnext : last.next? route = some (next, rest))
      (hrequest : Request.forSource source next = .error fault)
      (hresult : result = (.error fault, last.sent))
  /-- The next page is asked for and not answered. -/
  | unanswered {next : String} {rest : List String} {request : Request} {fault : Fault}
      (hnext : last.next? route = some (next, rest))
      (hrequest : Request.forSource source next = .ok request)
      (hbody : (transport last.sent request).body = .error fault)
      (hresult : result = (if last.visited.isEmpty then .error fault else .ok last.gathered,
        last.sent ++ [request]))

theorem exists_endsWith (route : Route α) (transport : Transport) (source : Source)
    (trip : Trip α) :
    ∃ last, Reaches route transport source trip last ∧
      EndsWith route transport source last (trip.ending route transport source) := by
  obtain ⟨last, hreaches, hstops⟩ := exists_stops route transport source trip
  refine ⟨last, hreaches, ?_⟩
  rw [ending_eq_of_reaches hreaches]
  rcases hstops.cases with hnext | ⟨fault, next, rest, hnext, hrequest⟩ |
    ⟨fault, next, rest, request, hnext, hrequest, hbody⟩
  · exact EndsWith.ended hnext (ending_of_next?_eq_none hnext)
  · exact EndsWith.unrequestable hnext hrequest (ending_of_unrequestable hnext hrequest)
  · exact EndsWith.unanswered hnext hrequest hbody (ending_of_unanswered hnext hrequest hbody)

theorem eq_flatMap_pagesRead_of_ending {items : List α} {sent : List Request}
    (h : (begin pageUrl).ending route transport source = (.ok items, sent)) :
    items = (transport.pagesRead sent).flatMap fun (request, body) =>
      route.gather request body := by
  obtain ⟨last, hreaches, hends⟩ := exists_endsWith route transport source (begin pageUrl)
  have hlast := onItsWay_of_reaches hreaches
  rw [h] at hends
  cases hends with
  | ended hnext hresult =>
      obtain ⟨hitems, hsent⟩ := Prod.mk.inj hresult
      rw [Except.ok.inj hitems, hsent]
      exact hlast.gathered
  | unrequestable hnext hrequest hresult => simp at hresult
  | unanswered hnext hrequest hbody hresult =>
      obtain ⟨hitems, hsent⟩ := Prod.mk.inj hresult
      split at hitems
      next => simp at hitems
      next =>
        rw [Except.ok.inj hitems, hsent, Transport.pagesRead_of_error hbody]
        exact hlast.gathered

end Trip

end BookRules
