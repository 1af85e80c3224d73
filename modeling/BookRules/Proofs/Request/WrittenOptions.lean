import BookRules.Proofs.Request.OptionShapes

/-!
# Options as they are written

Options are written as a JSON object behind the comma that follows an address.  An address
without a comma in front of an opening brace is passed over as a whole, so the options are
looked for behind that comma first, and they are read there whenever the object is.  The reader
of documents goes down a bounded number of levels and takes each number as the digits give it, so
what is asked of the text is that it spells the object for this reader.
-/

namespace BookRules

namespace Source

/-- The headers of an object have the texts of its values. -/
theorem get?_headersOf {members : List (String × Json)} (h : (members.map Prod.fst).Nodup)
    (name : String) :
    (headersOf members).get? name = (Json.lookup? name members).map headerText := by
  have hnames :
      ((members.map fun member => (member.1, headerText member.2)).map Prod.fst).Nodup := by
    simpa [Function.comp_def] using h
  have hget : ∀ members : List (String × Json),
      Bindings.get? name (members.map fun member => (member.1, headerText member.2)) =
        (Json.lookup? name members).map headerText := by
    intro members
    induction members with
    | nil => rfl
    | cons member rest ih =>
        obtain ⟨k, value⟩ := member
        rw [List.map_cons, Bindings.get?, Json.lookup?, ih]
        split_ifs <;> rfl
  exact (Bindings.get?_ofPairs hnames name).trans (hget members)

end Source

namespace Request

open Json (Form Spells)
open Text (Slotted letters)

/-! ## Reading an option object -/

/-- What an option object says. -/
structure Wish where
  method : String
  body : Option String
  headers : List (String × Json)

/-- The members of an option object; its names may come in any order, and others beside them. -/
structure Wish.IsGivenBy (wish : Wish) (members : List (String × Json)) : Prop where
  distinct : (Json.object members).Distinct
  method : Json.lookup? "method" members = some (.string wish.method)
  body : Json.lookup? "body" members = wish.body.map Json.string ∨
    wish.body = none ∧ Json.lookup? "body" members = some .null
  headers : Json.lookup? "headers" members = some (.object wish.headers)

variable {members : List (String × Json)} {wish : Wish} {source : Source} {url : String}

def Wish.toOptions (wish : Wish) : Options where
  method := wish.method
  body := wish.body
  headers := Source.headersOf wish.headers

namespace Wish.IsGivenBy

theorem count_le_one (h : wish.IsGivenBy members) (name : String) :
    Options.count name members ≤ 1 := by
  have hnames := (Json.distinct_object.1 h.distinct).1
  have hcount := List.nodup_iff_count_le_one.1 hnames name
  rwa [List.count, List.countP_map] at hcount

theorem ofMembers?_eq (h : wish.IsGivenBy members) :
    Options.ofMembers? members = some wish.toOptions := by
  have honce : ¬ (Options.names.any fun name => 1 < Options.count name members) = true := by
    simp [h.count_le_one]
  have hbody : body? (Json.lookup? "body" members) = some wish.body := by
    rcases h.body with hgiven | ⟨hnone, hnull⟩
    · rw [hgiven]
      cases wish.body <;> rfl
    · rw [hnull, hnone]
      rfl
  rw [Request.ofMembers?_eq, if_neg honce, h.method, hbody, h.headers]
  rfl

theorem nodup_headers (h : wish.IsGivenBy members) : (wish.headers.map Prod.fst).Nodup := by
  obtain ⟨hnames, hvalues⟩ := Json.distinct_object.1 h.distinct
  have hmem : Json.object wish.headers ∈
      (members.filter fun entry => entry.1 = "headers").map Prod.snd := by
    rw [Json.map_snd_filter_eq_lookup? hnames, h.headers]
    exact List.mem_singleton_self _
  obtain ⟨member, hmember, hvalue⟩ := List.mem_map.1 hmem
  have hdistinct := hvalues member (List.mem_of_mem_filter hmember)
  rw [hvalue] at hdistinct
  exact (Json.distinct_object.1 hdistinct).1

theorem parse?_eq (h : wish.IsGivenBy members)
    (hspells : Spells Json.maxDepth (letters cs : Slotted Empty)
      (.value (Form.ofJson (.object members)))) : Options.parse? cs = some wish.toOptions := by
  have hvalue : Json.FillsStrings (Empty.elim : Empty → List Char) := fun s => s.elim
  have hread := parse?_of_spellsDocument hvalue (fun _ _ s => s.elim)
    ⟨_, [], (List.append_nil _).symm, Json.blanks_nil, hspells⟩
  have hmerged : (members.map fun member => (member.1, member.2.merged)) = members := by
    have hvalues := (Json.distinct_object.1 h.distinct).2
    calc
      (members.map fun member => (member.1, member.2.merged)) = members.map id :=
        List.map_congr_left fun member hmember => by rw [(hvalues member hmember).merged_eq]; rfl
      _ = members := List.map_id members
  rw [Text.fill_letters, filledMembers, Form.fillMembers_ofMembers] at hread
  exact (hread.trans (congrArg Options.ofMembers? hmerged)).trans h.ofMembers?_eq

end Wish.IsGivenBy

/-- A text that spells an option object from its first character on. -/
structure Wish.IsWritten (wish : Wish) (members : List (String × Json)) (cs : List Char) :
    Prop where
  given : wish.IsGivenBy members
  opened : cs.head? = some '{'
  spelled : Spells Json.maxDepth (letters cs : Slotted Empty)
    (.value (Form.ofJson (.object members)))

/-- Options are written in compact text, and on several lines. -/
theorem Wish.isWritten_of_printable (h : wish.IsGivenBy members)
    (hprintable : Json.Printable Json.maxDepth (.object members)) :
    wish.IsWritten members (Json.text (.object members)) ∧
      wish.IsWritten members (Json.prettyText [] (.object members)) := by
  constructor
  · exact ⟨h, by simp [Json.text], hprintable.spells_text⟩
  · refine ⟨h, ?_, hprintable.spells_prettyText Json.blanks_nil⟩
    cases members <;> rfl

/-! ## The request -/

theorem ordered_headers (source : Source) : Bindings.Ordered source.headers := by
  unfold Source.headers
  split
  · exact Bindings.ordered_ofPairs _
  · exact List.Pairwise.nil

theorem forSource_eq (source : Source) (url : String) : forSource source url =
    match Url.absolute source.url (String.ofList (splitOptions url.toList).1) with
      | .ok address => .ok (withOptions source address (splitOptions url.toList).2)
      | .error fault => .error (.url fault) :=
  rfl

theorem methodOf_eq_post_iff (options : Options) :
    options.methodOf = .post ↔ Text.lowerAscii options.method.toList = "post".toList := by
  unfold Options.methodOf
  split_ifs with hpost
  · exact iff_of_true rfl hpost
  · exact iff_of_false (by decide) hpost

/-- A request is made with the options that are written behind its address, and with those
alone; without options it is a GET with the headers of the source. -/
theorem options_read_as_written {text : String} (hurl : NoOptions url.toList)
    (h : wish.IsWritten members text.toList) :
    (∀ fault, Url.absolute source.url (Text.trimmed url) = .error fault →
      forSource source (url ++ "," ++ text) = .error (.url fault) ∧
      forSource source url = .error (.url fault)) ∧
    ∀ address, Url.absolute source.url (Text.trimmed url) = .ok address →
      (∃ request, forSource source (url ++ "," ++ text) = .ok request ∧
        request.url = address ∧
        (request.method = .post ↔ Text.lowerAscii wish.method.toList = "post".toList) ∧
        request.body = wish.body ∧ Bindings.Ordered request.headers ∧
        ∀ name, request.headers.get? name =
          ((Json.lookup? name wish.headers).map Source.headerText).or
            (source.headers.get? name)) ∧
      forSource source url = .ok { url := address, headers := source.headers } := by
  obtain ⟨inner, hinner⟩ := List.head?_eq_some_iff.1 h.opened
  have hparse : Options.parse? ('\x7b' :: inner) = some wish.toOptions :=
    hinner ▸ h.given.parse?_eq h.spelled
  have hchars : (url ++ "," ++ text).toList = url.toList ++ ',' :: '\x7b' :: inner := by
    simp [hinner]
  rw [forSource_eq, hchars, splitOptions_options hurl hparse, forSource_eq,
    splitOptions_plain hurl]
  constructor
  · intro fault hfault
    rw [Text.trimmed] at hfault
    rw [hfault]
    exact ⟨rfl, rfl⟩
  · intro address haddress
    rw [Text.trimmed] at haddress
    rw [haddress]
    refine ⟨⟨_, rfl, rfl, methodOf_eq_post_iff _, rfl, ?_, fun name => ?_⟩, rfl⟩
    · exact Bindings.ordered_setAll _ (ordered_headers source)
    · have hnames : (wish.toOptions.headers.map Prod.fst).Nodup :=
        (Bindings.ordered_ofPairs _).nodup
      rw [← Source.get?_headersOf h.given.nodup_headers]
      exact Bindings.get?_setAll hnames _ name

/-- A shelf whose site needs no host. -/
def plainShelf : Source where
  url := "book:"

def givenMembers (body : String) (header : Json) : List (String × Json) :=
  [("body", .string body), ("headers", .object [("k", header)]), ("method", .string "Post")]

theorem isGivenBy_givenMembers (body : String) {header : Json} (hheader : header.Distinct) :
    Wish.IsGivenBy { method := "Post", body := some body, headers := [("k", header)] }
      (givenMembers body header) where
  distinct := by
    rw [Json.distinct_object]
    refine ⟨by simp [givenMembers], ?_⟩
    simp [givenMembers, Json.distinct_object, Json.distinct_string, hheader]
  method := by simp [givenMembers, Json.lookup?]
  body := Or.inl rfl
  headers := by simp [givenMembers, Json.lookup?]

/-- A body that looks like further options, and a header that is no text. -/
theorem options_read_as_written_post :
    let wish : Wish :=
      { method := "Post", body := some "a,\x7b\"b\"\x7d", headers := [("k", .null)] }
    let text := Json.compact (.object (givenMembers "a,\x7b\"b\"\x7d" .null))
    NoOptions " book:toc".toList ∧
    wish.IsWritten (givenMembers "a,\x7b\"b\"\x7d" .null) text.toList ∧
    ∃ request, forSource plainShelf (" book:toc" ++ "," ++ text) = .ok request ∧
      request.url = "book:toc" ∧ request.body = some "a,\x7b\"b\"\x7d" := by
  intro wish text
  have hurl : NoOptions " book:toc".toList := by
    unfold NoOptions
    decide +kernel
  have hprintable : Json.Printable Json.maxDepth
      (.object (givenMembers "a,\x7b\"b\"\x7d" .null)) := by
    refine @Json.Printable.object 126 _ ?_
    simp only [givenMembers, List.forall_mem_cons]
    refine ⟨.string _, @Json.Printable.object 125 _ ?_, .string _, by simp⟩
    simpa using Json.Printable.null
  have hwritten : wish.IsWritten (givenMembers "a,\x7b\"b\"\x7d" .null) text.toList := by
    have hgiven := isGivenBy_givenMembers "a,\x7b\"b\"\x7d" Json.distinct_null
    simpa [text, Json.compact] using (Wish.isWritten_of_printable hgiven hprintable).1
  have htrim : Text.trimmed " book:toc" = "book:toc" := by decide +kernel
  have haddress : Url.absolute plainShelf.url (Text.trimmed " book:toc") = .ok "book:toc" := by
    rw [htrim]
    rfl
  have hread := (options_read_as_written hurl hwritten).2 _ haddress
  obtain ⟨request, hrequest, hat, -, hbody, -⟩ := hread.1
  exact ⟨hurl, hwritten, request, hrequest, hat, hbody⟩

/-- Arrays inside each other. -/
def nest : Nat → Json
  | 0 => .array []
  | n + 1 => .array [nest n]

theorem distinct_nest (n : Nat) : (nest n).Distinct := by
  induction n with
  | zero => simp [nest, Json.distinct_array]
  | succ n ih => simpa [nest, Json.distinct_array] using ih

/-- A double that its shortest text is not read back as. -/
def misread : Json :=
  .number (.real (Float.ofBits 0x45108b2a2c280291))

/-- The request made with the compact text of an option object has the method and the headers
that the object says. -/
def Wish.IsReadBack (wish : Wish) (members : List (String × Json)) (source : Source)
    (url : String) : Prop :=
  ∃ request, forSource source (url ++ "," ++ Json.compact (.object members)) = .ok request ∧
    (request.method = .post ↔ Text.lowerAscii wish.method.toList = "post".toList) ∧
    ∀ name, request.headers.get? name =
      ((Json.lookup? name wish.headers).map Source.headerText).or (source.headers.get? name)

theorem toList_append_compact (url : String) (doc : Json) :
    (url ++ "," ++ Json.compact doc).toList = url.toList ++ ',' :: Json.text doc := by
  simp [Json.compact]

/-- Options that are nested too deeply for the reader of documents are no options, and a double
is read as its digits give it. -/
theorem not_read_as_written :
    NoOptions "book:toc".toList ∧
    Url.absolute plainShelf.url (Text.trimmed "book:toc") = .ok "book:toc" ∧
    ∀ header ∈ [nest 125, misread],
      let wish : Wish := { method := "Post", body := some "", headers := [("k", header)] }
      wish.IsGivenBy (givenMembers "" header) ∧
        ¬ wish.IsReadBack (givenMembers "" header) plainShelf "book:toc" := by
  have htrim : Text.trimmed "book:toc" = "book:toc" := by decide +kernel
  have haddress : Url.absolute plainShelf.url (Text.trimmed "book:toc") = .ok "book:toc" := by
    rw [htrim]
    rfl
  have hurl : NoOptions "book:toc".toList := by
    unfold NoOptions
    decide +kernel
  refine ⟨hurl, haddress, ?_⟩
  simp only [List.forall_mem_cons, List.not_mem_nil, false_imp_iff, implies_true, and_true]
  refine ⟨⟨isGivenBy_givenMembers "" (distinct_nest 125), ?_⟩, ?_, ?_⟩
  · rintro ⟨request, hrequest, hmethod, -⟩
    have hnone : (splitOptions ("book:toc".toList ++
        ',' :: Json.text (.object (givenMembers "" (nest 125))))).2 = none := by
      rw [← Option.isNone_iff_eq_none]
      decide +kernel
    rw [← toList_append_compact] at hnone
    rw [forSource_eq, hnone] at hrequest
    split at hrequest
    next address haddress =>
      obtain rfl := Except.ok.inj hrequest
      exact absurd (hmethod.2 (by decide)) (by simp [withOptions])
    next => cases hrequest
  · exact isGivenBy_givenMembers "" ((Json.distinct_number _))
  · rintro ⟨request, hrequest, -, hheaders⟩
    have hread : (splitOptions ("book:toc".toList ++
        ',' :: Json.text (.object (givenMembers "" misread)))).2 =
          some { method := "Post", body := some "",
                 headers := [("k", "4.999999999999999e+24")] } := by
      decide +kernel
    rw [← toList_append_compact] at hread
    rw [forSource_eq, hread] at hrequest
    split at hrequest
    next address haddress =>
      obtain rfl := Except.ok.inj hrequest
      have htext : Source.headerText misread = "5e+24" := by decide +kernel
      have hget := hheaders "k"
      rw [Json.lookup?, if_pos rfl, Option.map_some, htext, Option.some_or] at hget
      have hother : Bindings.get? "k" (plainShelf.headers.setAll
          [("k", "4.999999999999999e+24")]) = some "4.999999999999999e+24" := by
        decide +kernel
      have hsame : some "4.999999999999999e+24" = some "5e+24" := hother.symm.trans hget
      exact absurd hsame (by decide)
    next => cases hrequest

end Request

end BookRules
