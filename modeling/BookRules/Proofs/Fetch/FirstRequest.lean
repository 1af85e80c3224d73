import BookRules.Proofs.Fetch.Requests

/-!
# How the first page is asked for

The page of a book is asked for as its address says, with the options that follow the
address.  A walk over pages makes that request too, but keeps nothing of it except where
it goes to, and makes its first request anew from there.  So the options are lost, unless
the address that is left happens to carry them itself.

What is left of a request when it is made anew is decided by its address alone: it is the
same again if and only if the address, read once more, gives itself back and says the
method, the body and the headers.
-/

namespace BookRules

variable {α : Type} {route : Route α} {transport : Transport} {source : Source}

/-! ## Requests made anew -/

namespace Request

variable {url : String} {request : Request}

theorem url_withOptions (source : Source) (url : String) (options : Option Options) :
    (withOptions source url options).url = url := by
  cases options <;> rfl

/-- A request has the address that its text is read as, and the method, the body and the
headers that the options in the text say. -/
theorem forSource_eq_ok_iff :
    forSource source url = .ok request ↔
      Url.absolute source.url (String.ofList (splitOptions url.toList).1) = .ok request.url ∧
        request = withOptions source request.url (splitOptions url.toList).2 := by
  unfold forSource ofTarget
  obtain ⟨target, options⟩ := splitOptions url.toList
  dsimp only
  cases hurl : Url.absolute source.url (String.ofList target) with
  | error fault => simp
  | ok resolved =>
      simp only [Except.ok.injEq]
      constructor
      · rintro rfl
        rw [url_withOptions]
        exact ⟨rfl, rfl⟩
      · rintro ⟨rfl, hrequest⟩
        exact hrequest.symm

theorem fst_splitOptionsFrom {before text : List Char}
    (h : (splitOptionsFrom before text).2 = none) :
    (splitOptionsFrom before text).1 = Text.trim (before.reverse ++ text) := by
  induction text generalizing before with
  | nil => simp [splitOptionsFrom]
  | cons c rest ih =>
      unfold splitOptionsFrom at h ⊢
      dsimp only at h ⊢
      split at h
      next => simp at h
      next => simpa using ih h

theorem fst_splitOptions {text : List Char} (h : (splitOptions text).2 = none) :
    (splitOptions text).1 = Text.trim text :=
  fst_splitOptionsFrom h

/-- A request that is the same when it is made anew from its address. -/
def Repeatable (source : Source) (request : Request) : Prop :=
  forSource source request.url = .ok request

theorem repeatable_iff_of_plain (h : (splitOptions request.url.toList).2 = none) :
    request.Repeatable source ↔
      Url.absolute source.url (Text.trimmed request.url) = .ok request.url ∧
        request.method = .get ∧ request.body = none ∧ request.headers = source.headers := by
  unfold Repeatable
  rw [forSource_eq_ok_iff, h, fst_splitOptions h]
  refine and_congr_right fun _ => ?_
  obtain ⟨url, method, body, headers⟩ := request
  simp [withOptions]

end Request

/-! ## The first request of a walk -/

namespace Trip

variable {trip trip' : Trip α} {pageUrl : String}

theorem sent_isPrefix_of_reaches (h : Reaches route transport source trip trip') :
    trip.sent <+: trip'.sent := by
  induction h with
  | refl => exact List.prefix_rfl
  | tail _ hreads ih =>
      obtain ⟨-, -, -⟩ := hreads
      exact ih.trans (List.prefix_append _ _)

/-- What was asked for stays in front of what is asked for later. -/
theorem sent_isPrefix_ending (route : Route α) (transport : Transport) (source : Source)
    (trip : Trip α) : trip.sent <+: (trip.ending route transport source).2 := by
  obtain ⟨last, hreaches, hends⟩ := exists_endsWith route transport source trip
  have hprefix : trip.sent <+: last.sent := sent_isPrefix_of_reaches hreaches
  cases hends with
  | ended _ hresult => rwa [hresult]
  | unrequestable _ _ hresult => rwa [hresult]
  | unanswered _ _ _ hresult =>
      rw [hresult]
      exact hprefix.trans (List.prefix_append _ _)

theorem head?_ending_begin (hlimit : 0 < route.limit) (pageUrl : String) :
    ((begin pageUrl).ending route transport source).2.head? =
      (Request.forSource source pageUrl).toOption := by
  have hnext : (begin pageUrl : Trip α).next? route = some (pageUrl, []) :=
    next?_begin hlimit pageUrl
  cases hrequest : Request.forSource source pageUrl with
  | error fault =>
      rw [ending_of_unrequestable hnext hrequest]
      rfl
  | ok request =>
      cases hbody : (transport [] request).body with
      | error fault =>
          rw [ending_of_unanswered hnext hrequest hbody]
          rfl
      | ok body =>
          rw [ending_eq_of_reads (Reads.page hnext hrequest hbody)]
          obtain ⟨later, hsent⟩ := sent_isPrefix_ending route transport source
            ((begin pageUrl).afterPage route pageUrl [] request body)
          rw [← hsent]
          rfl

end Trip

/-! ## Books, lists of chapters and chapters -/

variable {url : String} {first : Request} {following : Option String}

theorem sent_bookDetail (hfirst : Request.forSource source url = .ok first) :
    ((bookDetail transport source url).run.run []).2 = [first] := by
  unfold bookDetail
  rw [hfirst]
  change ((Attempt.fetch transport first >>= fun body =>
    pure (Page.detail source body first.url) : Attempt Detail).run.run []).2 = _
  rw [Attempt.run_bind_pure, Attempt.run_fetch]
  rfl

theorem head?_sent_tableOfContents (hfirst : Request.forSource source url = .ok first) :
    ((tableOfContents transport source url).run.run []).2.head? =
      (Request.forSource source first.url).toOption := by
  have hlimit : 0 < (tocRoute source).limit := show 0 < Limits.tocPages by decide
  rw [tableOfContents_of_ok hfirst, Prod.map_snd, id_eq, Trip.head?_ending_begin hlimit]

theorem head?_sent_chapterText (hfirst : Request.forSource source url = .ok first) :
    ((chapterText transport source url following).run.run []).2.head? =
      (Request.forSource source first.url).toOption := by
  have hlimit : 0 < (chapterRoute source following).limit :=
    show 0 < Limits.chapterPages by decide
  rw [chapterText_of_ok hfirst, Prod.map_snd, id_eq, Trip.head?_ending_begin hlimit]

theorem toOption_forSource_eq_some_iff :
    (Request.forSource source first.url).toOption = some first ↔ first.Repeatable source := by
  unfold Request.Repeatable
  cases Request.forSource source first.url <;> simp [Except.toOption]

/-- The page of a book is asked for as its address says.  The first page of a list of
chapters and that of a chapter are asked for by what is left when the request is made anew
from its address, which is the same request if and only if that is repeatable.  Where the
address carries no options itself, it is the same only for a GET without a body and with
no headers but those of the source. -/
theorem first_requests (transport : Transport) (source : Source) (url : String)
    (following : Option String) {first : Request}
    (hfirst : Request.forSource source url = .ok first) :
    ((bookDetail transport source url).run.run []).2 = [first] ∧
    (∀ sent ∈ [((tableOfContents transport source url).run.run []).2,
        ((chapterText transport source url following).run.run []).2],
      sent.head? = (Request.forSource source first.url).toOption ∧
        (sent.head? = some first ↔ first.Repeatable source)) ∧
    ((Request.splitOptions first.url.toList).2 = none →
      (first.Repeatable source ↔
        Url.absolute source.url (Text.trimmed first.url) = .ok first.url ∧
          first.method = .get ∧ first.body = none ∧ first.headers = source.headers)) := by
  refine ⟨sent_bookDetail hfirst, ?_, Request.repeatable_iff_of_plain⟩
  have hwalk : ∀ sent : List Request,
      sent.head? = (Request.forSource source first.url).toOption →
        sent.head? = (Request.forSource source first.url).toOption ∧
          (sent.head? = some first ↔ first.Repeatable source) := by
    intro sent hhead
    refine ⟨hhead, ?_⟩
    rw [hhead]
    exact toOption_forSource_eq_some_iff
  intro sent hsent
  rw [List.mem_cons, List.mem_singleton] at hsent
  rcases hsent with rfl | rfl
  · exact hwalk _ (head?_sent_tableOfContents hfirst)
  · exact hwalk _ (head?_sent_chapterText hfirst)

/-- An address without options is asked for as it stands. -/
theorem first_requests_plain :
    Request.forSource opaqueShelf "book:toc" = .ok { url := "book:toc" } ∧
      ((tableOfContents opaquePages opaqueShelf "book:toc").run.run []).2.head? =
        some { url := "book:toc" } := by
  have hfirst : Request.forSource opaqueShelf "book:toc" = .ok { url := "book:toc" } := rfl
  have hwalks := (first_requests opaquePages opaqueShelf "book:toc" none hfirst).2.1
  exact ⟨hfirst, (hwalks _ List.mem_cons_self).2.2 hfirst⟩

def postedUrl : String :=
  "book:toc,\x7b\"method\":\"POST\",\"body\":\"id=7\"\x7d"

def postedRequest : Request where
  url := "book:toc"
  method := .post
  body := some "id=7"

/-- The page of a book is asked for by POST, but a list of chapters and a chapter at the
same address by GET. -/
theorem not_asked_first_of_options :
    Request.forSource opaqueShelf postedUrl = .ok postedRequest ∧
      ((bookDetail opaquePages opaqueShelf postedUrl).run.run []).2.head? = some postedRequest ∧
      ((tableOfContents opaquePages opaqueShelf postedUrl).run.run []).2.head? =
        some { url := "book:toc" } ∧
      ((chapterText opaquePages opaqueShelf postedUrl none).run.run []).2.head? =
        some { url := "book:toc" } ∧
      postedRequest ≠ { url := "book:toc" } := by
  have hoptions : Request.splitOptions postedUrl.toList =
      ("book:toc".toList, some { method := "POST", body := some "id=7" }) := by
    decide +kernel
  have hfirst : Request.forSource opaqueShelf postedUrl = .ok postedRequest := by
    unfold Request.forSource Request.ofTarget
    rw [hoptions]
    rfl
  have hagain : Request.forSource opaqueShelf postedRequest.url = .ok { url := "book:toc" } :=
    rfl
  refine ⟨hfirst, ?_, ?_, ?_, by decide⟩
  · rw [sent_bookDetail hfirst]
    rfl
  · rw [head?_sent_tableOfContents hfirst, hagain]
    rfl
  · rw [head?_sent_chapterText hfirst, hagain]
    rfl

end BookRules
