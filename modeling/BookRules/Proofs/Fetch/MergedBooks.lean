import BookRules.Proofs.Fetch.Completions
import BookRules.Proofs.List.Firsts

/-!
# The books of a search

The books of a search are put together from the outcomes of its sources in the order in
which these came, so all that is said here is said of outcomes in any order.  Which of two
books with one address is kept depends on the order, the addresses do not: an address is
found if some source finds it.  A source that fails or cannot be searched finds nothing and
may be left out.
-/

namespace BookRules.Search

variable {transport transport' : Transport} {keyword : String} {source : Source}
  {sources : List Source} {outcome : Outcome} {done done' : List (Source × Outcome)}

/-! ## The books of outcomes -/

def mergedOf (done : List (Source × Outcome)) : List FoundBook :=
  merge (done.map Prod.snd)

def addressesOf (done : List (Source × Outcome)) : List String :=
  (mergedOf done).map FoundBook.bookUrl

/-- What the books of outcomes are, in whatever order these came. -/
structure Merged (done : List (Source × Outcome)) (books : List FoundBook) : Prop where
  nodup : (books.map FoundBook.bookUrl).Nodup
  mem_addresses : ∀ url, url ∈ books.map FoundBook.bookUrl ↔
    ∃ source found, (source, Except.ok found) ∈ done ∧ url ∈ found.map FoundBook.bookUrl
  found : ∀ book ∈ books, ∃ source found, (source, Except.ok found) ∈ done ∧ book ∈ found
  /-- Of the books of one source some are left out, the others stay in their order. -/
  inOrder : ∃ kept, books = kept.flatten ∧
    List.Forall₂ List.Sublist kept (done.map fun entry => booksOf entry.2)

theorem newBooks_eq_firstsBy (seen : List String) (books : List FoundBook) :
    newBooks seen books =
      firstsBy FoundBook.bookUrl (books.filter fun book => book.bookUrl ∉ seen) := by
  refine eq_firstsBy_of_scan newBooks (fun _ => rfl) (fun seen book rest => ?_) seen books
  rw [newBooks, List.contains_eq_mem]
  simp only [decide_eq_true_eq]

theorem mergedOf_eq (done : List (Source × Outcome)) :
    mergedOf done =
      firstsBy FoundBook.bookUrl (done.map fun entry => booksOf entry.2).flatten := by
  unfold mergedOf merge
  rw [newBooks_eq_firstsBy, List.flatMap_def, List.map_map]
  simp only [List.not_mem_nil, not_false_eq_true, decide_true, List.filter_true]
  rfl

theorem mem_flatten_booksOf {book : FoundBook} :
    book ∈ (done.map fun entry => booksOf entry.2).flatten ↔
      ∃ source found, (source, Except.ok found) ∈ done ∧ book ∈ found := by
  simp only [List.mem_flatten, List.mem_map, exists_exists_and_eq_and]
  constructor
  · rintro ⟨⟨source, outcome⟩, hentry, hbook⟩
    cases outcome with
    | error fault => simp [booksOf] at hbook
    | ok found => exact ⟨source, found, hentry, hbook⟩
  · rintro ⟨source, found, hentry, hbook⟩
    exact ⟨(source, .ok found), hentry, hbook⟩

theorem merged_mergedOf (done : List (Source × Outcome)) : Merged done (mergedOf done) := by
  rw [mergedOf_eq]
  constructor
  · exact nodup_map_firstsBy _ _
  · intro url
    rw [mem_map_firstsBy]
    simp only [List.mem_map, mem_flatten_booksOf]
    constructor
    · rintro ⟨book, ⟨source, found, hentry, hbook⟩, rfl⟩
      exact ⟨source, found, hentry, book, hbook, rfl⟩
    · rintro ⟨source, found, hentry, book, hbook, rfl⟩
      exact ⟨book, ⟨source, found, hentry, hbook⟩, rfl⟩
  · intro book hbook
    exact mem_flatten_booksOf.1 ((firstsBy_sublist _ _).subset hbook)
  · exact exists_firstsBy_flatten _ _

theorem mem_addressesOf {url : String} :
    url ∈ addressesOf done ↔
      ∃ source found, (source, Except.ok found) ∈ done ∧ url ∈ found.map FoundBook.bookUrl :=
  (merged_mergedOf done).mem_addresses url

theorem mem_addressesOf_of_perm (hperm : done'.Perm done) (url : String) :
    url ∈ addressesOf done' ↔ url ∈ addressesOf done := by
  simp only [mem_addressesOf, hperm.mem_iff]

/-! ## Sources that find nothing -/

/-- An address that one of the sources finds. -/
def Finds (transport : Transport) (keyword : String) (sources : List Source) (url : String) :
    Prop :=
  ∃ source ∈ sources, source.isSearchable = true ∧
    ∃ found, Gives transport keyword source (.ok found) ∧ url ∈ found.map FoundBook.bookUrl

/-- A source that cannot be searched, or that fails. -/
def Silent (transport : Transport) (keyword : String) (source : Source) : Prop :=
  source.isSearchable = false ∨ ∃ fault, Gives transport keyword source (.error fault)

/-- Where answers depend on the request alone, a search finds what its sources find, in
whatever order they finish. -/
theorem Completes.mem_addressesOf_iff (halike : transport.AnswersLike transport')
    (h : Completes transport' keyword (sources.filter Source.isSearchable) done) (url : String) :
    url ∈ addressesOf done ↔ Finds transport keyword sources url := by
  rw [mem_addressesOf]
  constructor
  · rintro ⟨source, found, hentry, hurl⟩
    have hsource : source ∈ sources.filter Source.isSearchable :=
      h.sources.mem_iff.1 (List.mem_map_of_mem hentry)
    obtain ⟨hmem, hsearchable⟩ := List.mem_filter.1 hsource
    exact ⟨source, hmem, hsearchable, found, (h.gives _ hentry).of_alike halike, hurl⟩
  · rintro ⟨source, hmem, hsearchable, found, hgives, hurl⟩
    have hsource : source ∈ done.map Prod.fst :=
      h.sources.mem_iff.2 (List.mem_filter.2 ⟨hmem, hsearchable⟩)
    obtain ⟨⟨_, outcome⟩, hentry, rfl⟩ := List.mem_map.1 hsource
    obtain rfl : Except.ok found = outcome := hgives.eq halike (h.gives _ hentry)
    exact ⟨_, found, hentry, hurl⟩

theorem finds_without {before after : List Source}
    (halike : transport.AnswersLike transport) (hsilent : Silent transport keyword source)
    (url : String) :
    Finds transport keyword (before ++ after) url ↔
      Finds transport keyword (before ++ source :: after) url := by
  constructor
  · rintro ⟨other, hmem, hfinds⟩
    refine ⟨other, ?_, hfinds⟩
    rw [List.mem_append] at hmem ⊢
    exact hmem.imp_right (List.mem_cons_of_mem source)
  · rintro ⟨other, hmem, hsearchable, found, hgives, hurl⟩
    refine ⟨other, ?_, hsearchable, found, hgives, hurl⟩
    rw [List.mem_append, List.mem_cons] at hmem
    rw [List.mem_append]
    rcases hmem with hbefore | rfl | hafter
    · exact Or.inl hbefore
    · exfalso
      rcases hsilent with hnot | ⟨fault, hfails⟩
      · simp [hnot] at hsearchable
      · cases hgives.eq halike hfails
    · exact Or.inr hafter

theorem Completes.without {before after : List Source} {fault : Fault}
    (h : Completes transport keyword ((before ++ source :: after).filter Source.isSearchable) done)
    (hentry : (source, Except.error fault) ∈ done) :
    ∃ done', Completes transport keyword ((before ++ after).filter Source.isSearchable) done' ∧
      mergedOf done' = mergedOf done := by
  obtain ⟨earlier, later, rfl⟩ := List.append_of_mem hentry
  have hsearchable : source.isSearchable = true := by
    have hsource := h.sources.mem_iff.1 (List.mem_map_of_mem hentry)
    exact (List.mem_filter.1 hsource).2
  refine ⟨earlier ++ later, ⟨?_, ?_⟩, ?_⟩
  · have hsources := h.sources
    rw [List.map_append, List.map_cons, List.filter_append,
      List.filter_cons_of_pos hsearchable] at hsources
    rw [List.map_append, List.filter_append]
    exact (List.perm_middle.symm.trans (hsources.trans List.perm_middle)).cons_inv
  · intro entry hmem
    refine h.gives entry ?_
    rw [List.mem_append] at hmem ⊢
    exact hmem.imp_right (List.mem_cons_of_mem _)
  · simp [mergedOf_eq, booksOf]

theorem searchAll_without {before after : List Source} (h : source.isSearchable = false) :
    searchAll transport (before ++ after) keyword =
      searchAll transport (before ++ source :: after) keyword := by
  unfold searchAll
  rw [List.filter_append, List.filter_append, List.filter_cons_of_neg (by simp [h])]

/-- Whatever the order in which sources finish, the books of a search have each address
once, every address that a source found is among them, they are books that some source
found, and those of one source stand in their order.  Which addresses are found does not
depend on the order, and sources that fail or cannot be searched may be left out. -/
theorem searchAll_any_order (transport : Transport) (sources : List Source) (keyword : String) :
    (∀ sent, ∃ done,
      Completes transport keyword (sources.filter Source.isSearchable) done ∧
      ((searchAll transport sources keyword).run sent).1 = mergedOf done) ∧
    (∀ done, Completes transport keyword (sources.filter Source.isSearchable) done →
      Merged done (mergedOf done) ∧
      (∀ done', done'.Perm done →
        Completes transport keyword (sources.filter Source.isSearchable) done' ∧
        ∀ url, url ∈ addressesOf done' ↔ url ∈ addressesOf done) ∧
      ∀ before source after fault, sources = before ++ source :: after →
        (source, Except.error fault) ∈ done →
        ∃ done', Completes transport keyword ((before ++ after).filter Source.isSearchable) done' ∧
          mergedOf done' = mergedOf done) ∧
    (∀ before source after, sources = before ++ source :: after → source.isSearchable = false →
      searchAll transport (before ++ after) keyword = searchAll transport sources keyword) ∧
    ∀ transport', transport.AnswersLike transport' →
      (∀ done, Completes transport' keyword (sources.filter Source.isSearchable) done →
        ∀ url, url ∈ addressesOf done ↔ Finds transport keyword sources url) ∧
      ∀ before source after, sources = before ++ source :: after →
        Silent transport keyword source →
        ∀ done, Completes transport' keyword ((before ++ after).filter Source.isSearchable) done →
          ∀ url, url ∈ addressesOf done ↔ Finds transport keyword sources url := by
  refine ⟨?_, ?_, ?_, ?_⟩
  · intro sent
    obtain ⟨done, hdone, hcame⟩ := (settled_outcomes transport keyword
      (sources.filter Source.isSearchable) sent).exists_completes
    refine ⟨done, hdone, ?_⟩
    unfold searchAll mergedOf
    rw [Fetch.run_bind, hcame]
    rfl
  · intro done hdone
    refine ⟨merged_mergedOf done, ?_, ?_⟩
    · intro done' hperm
      exact ⟨hdone.perm hperm, mem_addressesOf_of_perm hperm⟩
    · rintro before source after fault rfl hentry
      exact hdone.without hentry
  · rintro before source after rfl hnot
    exact searchAll_without hnot
  · intro transport' halike
    refine ⟨fun done hdone => hdone.mem_addressesOf_iff halike, ?_⟩
    rintro before source after rfl hsilent done hdone url
    rw [hdone.mem_addressesOf_iff halike, finds_without (Transport.AnswersLike.self halike) hsilent]

end BookRules.Search
