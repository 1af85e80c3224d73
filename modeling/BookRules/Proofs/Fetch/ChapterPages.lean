import BookRules.Proofs.Fetch.Requests
import Mathlib.Logic.Basic

/-!
# Which pages belong to a chapter

A page of a chapter may link to several others.  The walk goes to the first one that is
neither visited nor the chapter that follows, and to no other.  What waits behind the last
page read is therefore nothing but that link, and every page of the walk is the one that
comes next when the pages in front of it are visited.

The walk ends at the limit, or where nothing comes next, because no link leads on or the
last page failed, or where the link that comes next is no address.
-/

namespace BookRules

variable {transport : Transport} {source : Source} {following : Option String}
  {pages visited links : List String} {sent : List Request} {start next : String}

/-! ## The page that comes next -/

/-- The first of the links that is neither visited nor the chapter that follows. -/
def LeadsTo (following : Option String) (visited links : List String) (next : String) : Prop :=
  (next ∉ visited ∧ some next ≠ following) ∧ ∃ before after, links = before ++ next :: after ∧
    ∀ url ∈ before, url ∈ visited ∨ some url = following

theorem LeadsTo.mem (h : LeadsTo following visited links next) : next ∈ links := by
  obtain ⟨-, before, after, rfl, -⟩ := h
  simp

/-- The page that is asked for after these pages: the first one, or the one that the last
page leads to. -/
def ComesNext (transport : Transport) (source : Source) (following : Option String)
    (start : String) (pages : List String) (sent : List Request) (next : String) : Prop :=
  (pages = [] ∧ next = start) ∨ ∃ request body,
    (transport.log sent).getLast? = some (request, .ok body) ∧
      LeadsTo following pages (Page.chapter source body request.url).nextUrls next

/-- Every page is the one that comes next after those in front of it. -/
def FollowsLinks (transport : Transport) (source : Source) (following : Option String)
    (start : String) (pages : List String) (sent : List Request) : Prop :=
  ∀ i page, pages[i]? = some page →
    ComesNext transport source following start (pages.take i) (sent.take i) page

theorem FollowsLinks.append {request : Request}
    (h : FollowsLinks transport source following start pages sent)
    (hlength : pages.length = sent.length)
    (hnext : ComesNext transport source following start pages sent next) :
    FollowsLinks transport source following start (pages ++ [next]) (sent ++ [request]) := by
  intro i page hpage
  by_cases hi : i < pages.length
  · rw [List.getElem?_append_left hi] at hpage
    rw [List.take_append_of_le_length (Nat.le_of_lt hi),
      List.take_append_of_le_length (hlength ▸ Nat.le_of_lt hi)]
    exact h i page hpage
  · have hlast : i = pages.length ∧ next = page := by
      rw [List.getElem?_append_right (Nat.le_of_not_lt hi), List.getElem?_singleton] at hpage
      split at hpage
      next hzero => exact ⟨by omega, Option.some.inj hpage⟩
      next => simp at hpage
    obtain ⟨rfl, rfl⟩ := hlast
    rw [List.take_left, hlength, List.take_left]
    exact hnext

namespace Trip

variable {trip : Trip String}

end Trip

/-! ## Chapters -/

end BookRules
