import BookRules.Fetch.Walk
import Mathlib.Logic.Relation
import Mathlib.Tactic.Simps.Basic

/-!
# Walks page by page

The walk over a list of chapters and the walk over a chapter differ in what they take
from a page and in the addresses they go to from there, and in nothing else.  A `Trip`
is a walk under way: the addresses visited, those still waiting, the requests made and
what was gathered.

Reading one more page does not change what a walk will give in the end, and as no walk
reads more than its limit, it comes to a point where it stops.  What a walk gives is
therefore decided at the place where it stops.
-/

namespace BookRules

/-- What a walk takes from a page, and where it goes from there. -/
structure Route (α : Type) where
  /-- How many pages are read at most. -/
  limit : Nat
  gather : Request → String → List α
  /-- The addresses that wait behind a page, from those visited and those waiting. -/
  ahead : Request → String → List String → List String → List String

/-- The walk over a list of chapters. -/
@[simps]
def tocRoute (source : Source) : Route ChapterLink where
  limit := Limits.tocPages
  gather request body := (Page.toc source body request.url).links
  ahead request body visited waiting :=
    waiting ++ (Page.toc source body request.url).nextUrls.filter fun url => !visited.contains url

/-- The walk over the pages of a chapter. -/
@[simps]
def chapterRoute (source : Source) (following : Option String) : Route String where
  limit := Limits.chapterPages
  gather request body := [(Page.chapter source body request.url).text]
  ahead request body visited _ :=
    ((Page.chapter source body request.url).nextUrls.find? fun url =>
      !visited.contains url && some url != following).toList

variable {α : Type} {transport : Transport} {source : Source}

/-- Visit the pages of a route, at most `left` of them. -/
def Route.visit (route : Route α) (transport : Transport) (source : Source) :
    Nat → List String → List String → Attempt (List α)
  | 0, _, _ => return []
  | left + 1, visited, waiting => do
    match waiting.dropWhile visited.contains with
    | [] => return []
    | pageUrl :: rest =>
      match ← walkPage? transport source visited.isEmpty pageUrl with
      | none => return []
      | some (request, body) =>
        let visited := pageUrl :: visited
        return route.gather request body ++
          (← route.visit transport source left visited (route.ahead request body visited rest))

theorem TocWalk.visit_eq (left : Nat) (visited queue : List String) :
    TocWalk.visit transport source left visited queue =
      (tocRoute source).visit transport source left visited queue := by
  induction left generalizing visited queue with
  | zero => rfl
  | succ left ih =>
      unfold TocWalk.visit Route.visit
      cases queue.dropWhile visited.contains with
      | nil => rfl
      | cons pageUrl rest =>
          dsimp only
          refine bind_congr fun found => ?_
          cases found with
          | none => rfl
          | some page => simp only [ih, tocRoute_gather, tocRoute_ahead]

/-- A walk without addresses to go to gives nothing more. -/
theorem Route.visit_nil (route : Route α) (left : Nat) (visited : List String) :
    route.visit transport source left visited [] = pure [] := by
  cases left <;> rfl

theorem ChapterWalk.visit_eq {following : Option String} (left : Nat) {visited : List String}
    {pageUrl : String} (hnew : pageUrl ∉ visited) :
    ChapterWalk.visit transport source following left visited pageUrl =
      (chapterRoute source following).visit transport source left visited [pageUrl] := by
  induction left generalizing visited pageUrl with
  | zero => rfl
  | succ left ih =>
      have hhead : [pageUrl].dropWhile visited.contains = [pageUrl] := by
        simp [hnew]
      unfold ChapterWalk.visit Route.visit
      rw [hhead]
      dsimp only
      refine bind_congr fun found => ?_
      cases found with
      | none => rfl
      | some page =>
          simp only [chapterRoute_gather, chapterRoute_ahead]
          cases hnext : (Page.chapter source page.2 page.1.url).nextUrls.find? fun url =>
              !(pageUrl :: visited).contains url && some url != following with
          | none =>
              rw [Option.toList_none, Route.visit_nil]
              simp
          | some next =>
              have hfresh : next ∉ pageUrl :: visited := by
                intro hmem
                have hfound := List.find?_some hnext
                rw [Bool.and_eq_true, Bool.not_eq_true', List.contains_eq_mem,
                  decide_eq_false_iff_not] at hfound
                exact hfound.1 hmem
              simp only [ih hfresh, Option.toList_some, List.singleton_append]

/-! ## Fetching a page of a walk -/

theorem Attempt.run_bind {β γ : Type} (m : Attempt β) (f : β → Attempt γ) (sent : List Request) :
    (m >>= f).run.run sent =
      match m.run.run sent with
      | (.ok b, sent') => (f b).run.run sent'
      | (.error fault, sent') => (.error fault, sent') := by
  rw [ExceptT.run_bind, StateT.run_bind]
  cases hm : m.run.run sent with
  | mk found sent' =>
      cases found with
      | ok b => rfl
      | error fault => rfl

theorem Attempt.run_bind_pure {β γ : Type} (m : Attempt β) (f : β → γ) (sent : List Request) :
    (m >>= fun b => pure (f b)).run.run sent = (m.run.run sent).map (·.map f) id := by
  rw [Attempt.run_bind]
  cases hm : m.run.run sent with
  | mk found sent' =>
      cases found with
      | ok b => rfl
      | error fault => rfl

theorem Attempt.run_fetch (transport : Transport) (request : Request) (sent : List Request) :
    (Attempt.fetch transport request).run.run sent =
      ((transport sent request).body, sent ++ [request]) := by
  unfold Attempt.fetch
  have hanswer : (Attempt.answer transport request).run.run sent =
      (.ok (transport sent request).body, sent ++ [request]) := rfl
  rw [Attempt.run_bind, hanswer]
  cases (transport sent request).body <;> rfl

theorem run_walkPage?_of_error {first : Bool} {pageUrl : String} {fault : Fault}
    (hrequest : Request.forSource source pageUrl = .error fault) (sent : List Request) :
    (walkPage? transport source first pageUrl).run.run sent = (.error fault, sent) := by
  unfold walkPage?
  rw [hrequest]
  rfl

theorem run_walkPage?_of_ok {first : Bool} {pageUrl : String} {request : Request}
    (hrequest : Request.forSource source pageUrl = .ok request) (sent : List Request) :
    (walkPage? transport source first pageUrl).run.run sent =
      (match (transport sent request).body with
        | .ok body => .ok (some (request, body))
        | .error fault => if first then .error fault else .ok none,
      sent ++ [request]) := by
  unfold walkPage?
  rw [hrequest, Attempt.run_bind]
  have hanswer : (Attempt.answer transport request).run.run sent =
      (.ok (transport sent request).body, sent ++ [request]) := rfl
  change ((Attempt.answer transport request >>= _ : Attempt _).run.run sent) = _
  rw [Attempt.run_bind, hanswer]
  cases (transport sent request).body with
  | ok body => rfl
  | error fault => cases first <;> rfl

/-! ## Trips -/

/-- A walk under way. -/
structure Trip (α : Type) where
  /-- The addresses visited, the last one first. -/
  visited : List String := []
  waiting : List String
  /-- The requests made. -/
  sent : List Request := []
  gathered : List α := []

namespace Trip

variable {route : Route α} {trip : Trip α}

/-- The address to visit next, with those that wait behind it; none when the limit is
reached or no new address waits. -/
def next? (route : Route α) (trip : Trip α) : Option (String × List String) :=
  if route.limit ≤ trip.visited.length then none
  else match trip.waiting.dropWhile trip.visited.contains with
    | [] => none
    | pageUrl :: rest => some (pageUrl, rest)

/-- The trip after a page was read. -/
def afterPage (route : Route α) (trip : Trip α) (pageUrl : String) (rest : List String)
    (request : Request) (body : String) : Trip α where
  visited := pageUrl :: trip.visited
  waiting := route.ahead request body (pageUrl :: trip.visited) rest
  sent := trip.sent ++ [request]
  gathered := trip.gathered ++ route.gather request body

/-- One more page is read. -/
inductive Reads (route : Route α) (transport : Transport) (source : Source) (trip : Trip α) :
    Trip α → Prop
  | page {pageUrl : String} {rest : List String} {request : Request} {body : String}
      (hnext : trip.next? route = some (pageUrl, rest))
      (hrequest : Request.forSource source pageUrl = .ok request)
      (hbody : (transport trip.sent request).body = .ok body) :
      Reads route transport source trip (trip.afterPage route pageUrl rest request body)

/-- The trips that a trip comes to by reading pages. -/
abbrev Reaches (route : Route α) (transport : Transport) (source : Source) :
    Trip α → Trip α → Prop :=
  Relation.ReflTransGen (Reads route transport source)

/-- The next address cannot be made a request. -/
def Unrequestable (route : Route α) (source : Source) (trip : Trip α) (fault : Fault) : Prop :=
  ∃ pageUrl rest, trip.next? route = some (pageUrl, rest) ∧
    Request.forSource source pageUrl = .error fault

/-- The next page cannot be fetched. -/
def Unanswered (route : Route α) (transport : Transport) (source : Source) (trip : Trip α)
    (fault : Fault) : Prop :=
  ∃ pageUrl rest request, trip.next? route = some (pageUrl, rest) ∧
    Request.forSource source pageUrl = .ok request ∧
    (transport trip.sent request).body = .error fault

/-- What the walk gives in the end. -/
def outcome (route : Route α) (transport : Transport) (source : Source) (trip : Trip α) :
    Except Fault (List α) :=
  ((route.visit transport source (route.limit - trip.visited.length) trip.visited
    trip.waiting).run.run trip.sent).1.map (trip.gathered ++ ·)

/-- A trip reads a page, or it is over, or a link or a page fails it. -/
theorem reads_or_stops (route : Route α) (transport : Transport) (source : Source)
    (trip : Trip α) :
    (∃ trip', Reads route transport source trip trip') ∨ trip.next? route = none ∨
      (∃ fault, Unrequestable route source trip fault) ∨
      ∃ fault, Unanswered route transport source trip fault := by
  cases hnext : trip.next? route with
  | none => exact Or.inr (Or.inl rfl)
  | some found =>
      obtain ⟨pageUrl, rest⟩ := found
      cases hrequest : Request.forSource source pageUrl with
      | error fault => exact Or.inr (Or.inr (Or.inl ⟨fault, pageUrl, rest, hnext, hrequest⟩))
      | ok request =>
          cases hbody : (transport trip.sent request).body with
          | error fault =>
              exact Or.inr (Or.inr (Or.inr ⟨fault, pageUrl, rest, request, hnext, hrequest, hbody⟩))
          | ok body => exact Or.inl ⟨_, Reads.page hnext hrequest hbody⟩

/-! ## What a walk gives in the end -/

theorem visit_of_next?_eq_none (h : trip.next? route = none) :
    route.visit transport source (route.limit - trip.visited.length) trip.visited trip.waiting =
      pure [] := by
  unfold next? at h
  split at h
  next hlimit =>
    rw [Nat.sub_eq_zero_of_le hlimit]
    rfl
  next hlimit =>
    obtain ⟨left, hleft⟩ : ∃ left, route.limit - trip.visited.length = left + 1 :=
      ⟨route.limit - trip.visited.length - 1, by omega⟩
    rw [hleft]
    unfold Route.visit
    cases hwaiting : trip.waiting.dropWhile trip.visited.contains with
    | nil => rfl
    | cons pageUrl rest => simp [hwaiting] at h

theorem visit_of_next?_eq_some {pageUrl : String} {rest : List String}
    (h : trip.next? route = some (pageUrl, rest)) :
    route.visit transport source (route.limit - trip.visited.length) trip.visited trip.waiting =
      (do
        match ← walkPage? transport source trip.visited.isEmpty pageUrl with
        | none => return []
        | some (request, body) =>
          return route.gather request body ++
            (← route.visit transport source (route.limit - (trip.visited.length + 1))
              (pageUrl :: trip.visited)
              (route.ahead request body (pageUrl :: trip.visited) rest))) := by
  unfold next? at h
  split at h
  next => simp at h
  next hlimit =>
    obtain ⟨left, hleft⟩ : ∃ left, route.limit - trip.visited.length = left + 1 :=
      ⟨route.limit - trip.visited.length - 1, by omega⟩
    have hleft' : route.limit - (trip.visited.length + 1) = left := by omega
    rw [hleft, hleft']
    rw [Route.visit]
    cases hwaiting : trip.waiting.dropWhile trip.visited.contains with
    | nil => simp [hwaiting] at h
    | cons pageUrl' rest' =>
        simp only [hwaiting, Option.some.injEq, Prod.mk.injEq] at h
        obtain ⟨rfl, rfl⟩ := h
        rfl

/-- What the walk gives in the end, and all requests that it will have made. -/
def ending (route : Route α) (transport : Transport) (source : Source) (trip : Trip α) :
    Except Fault (List α) × List Request :=
  ((route.visit transport source (route.limit - trip.visited.length) trip.visited
    trip.waiting).run.run trip.sent).map (·.map (trip.gathered ++ ·)) id

theorem ending_of_next?_eq_none (h : trip.next? route = none) :
    trip.ending route transport source = (.ok trip.gathered, trip.sent) := by
  unfold ending
  rw [visit_of_next?_eq_none h]
  change (Except.ok (trip.gathered ++ []), trip.sent) = _
  rw [List.append_nil]

theorem ending_of_unrequestable {pageUrl : String} {rest : List String} {fault : Fault}
    (hnext : trip.next? route = some (pageUrl, rest))
    (hrequest : Request.forSource source pageUrl = .error fault) :
    trip.ending route transport source = (.error fault, trip.sent) := by
  unfold ending
  rw [visit_of_next?_eq_some hnext, Attempt.run_bind, run_walkPage?_of_error hrequest]
  rfl

theorem ending_of_unanswered {pageUrl : String} {rest : List String} {request : Request}
    {fault : Fault} (hnext : trip.next? route = some (pageUrl, rest))
    (hrequest : Request.forSource source pageUrl = .ok request)
    (hbody : (transport trip.sent request).body = .error fault) :
    trip.ending route transport source =
      (if trip.visited.isEmpty then .error fault else .ok trip.gathered,
        trip.sent ++ [request]) := by
  unfold ending
  rw [visit_of_next?_eq_some hnext, Attempt.run_bind, run_walkPage?_of_ok hrequest, hbody]
  cases trip.visited.isEmpty with
  | true => rfl
  | false =>
      change (Except.ok (trip.gathered ++ []), trip.sent ++ [request]) = _
      rw [List.append_nil]
      rfl

/-- Reading one more page changes neither what the walk will give nor what it will have
asked for. -/
theorem ending_eq_of_reads {trip' : Trip α} (h : Reads route transport source trip trip') :
    trip.ending route transport source = trip'.ending route transport source := by
  obtain ⟨hnext, hrequest, hbody⟩ := h
  unfold ending
  rw [visit_of_next?_eq_some hnext, Attempt.run_bind, run_walkPage?_of_ok hrequest, hbody]
  dsimp only
  rw [Attempt.run_bind]
  simp only [afterPage, List.length_cons]
  generalize (route.visit transport source _ _ _).run.run _ = later
  obtain ⟨found, sent⟩ := later
  cases found with
  | ok items => exact congrArg (Except.ok · , sent) (List.append_assoc _ _ items).symm
  | error fault => rfl

theorem ending_eq_of_reaches {trip' : Trip α} (h : Reaches route transport source trip trip') :
    trip.ending route transport source = trip'.ending route transport source := by
  induction h with
  | refl => rfl
  | tail _ hreads ih => exact ih.trans (ending_eq_of_reads hreads)

theorem outcome_eq_fst_ending :
    trip.outcome route transport source = (trip.ending route transport source).1 :=
  rfl

theorem outcome_of_next?_eq_none (h : trip.next? route = none) :
    trip.outcome route transport source = .ok trip.gathered := by
  rw [outcome_eq_fst_ending, ending_of_next?_eq_none h]

theorem outcome_of_unrequestable {fault : Fault} (h : Unrequestable route source trip fault) :
    trip.outcome route transport source = .error fault := by
  obtain ⟨pageUrl, rest, hnext, hrequest⟩ := h
  rw [outcome_eq_fst_ending, ending_of_unrequestable hnext hrequest]

theorem outcome_of_unanswered {fault : Fault}
    (h : Unanswered route transport source trip fault) :
    trip.outcome route transport source =
      if trip.visited.isEmpty then .error fault else .ok trip.gathered := by
  obtain ⟨pageUrl, rest, request, hnext, hrequest, hbody⟩ := h
  rw [outcome_eq_fst_ending, ending_of_unanswered hnext hrequest hbody]

theorem outcome_eq_of_reaches {trip' : Trip α} (h : Reaches route transport source trip trip') :
    trip.outcome route transport source = trip'.outcome route transport source := by
  rw [outcome_eq_fst_ending, outcome_eq_fst_ending, ending_eq_of_reaches h]

/-! ## Where a walk stops -/

/-- The walk reads no further page. -/
def Stops (route : Route α) (transport : Transport) (source : Source) (trip : Trip α) : Prop :=
  ∀ trip', ¬ Reads route transport source trip trip'

/-- A walk comes to a point where it stops. -/
theorem exists_stops (route : Route α) (transport : Transport) (source : Source)
    (trip : Trip α) :
    ∃ last, Reaches route transport source trip last ∧ Stops route transport source last := by
  -- the number of pages that may still be read goes down with every page
  induction hleft : route.limit - trip.visited.length generalizing trip with
  | zero =>
      refine ⟨trip, Relation.ReflTransGen.refl, ?_⟩
      rintro _ ⟨hnext, -, -⟩
      unfold next? at hnext
      rw [if_pos (by omega)] at hnext
      simp at hnext
  | succ left ih =>
      by_cases hstops : Stops route transport source trip
      · exact ⟨trip, Relation.ReflTransGen.refl, hstops⟩
      · obtain ⟨trip', hreads⟩ : ∃ trip', Reads route transport source trip trip' :=
          Classical.not_forall_not.1 hstops
        have hshorter : route.limit - trip'.visited.length = left := by
          obtain ⟨-, -, -⟩ := hreads
          simp only [afterPage, List.length_cons]
          omega
        obtain ⟨last, hreaches, hlast⟩ := ih trip' hshorter
        exact ⟨last, Relation.ReflTransGen.head hreads hreaches, hlast⟩

end Trip

end BookRules
