import BookRules.Fetch.Search
import BookRules.Proofs.Fetch.Trips
import Mathlib.Data.List.Perm.Basic

/-!
# In which order sources finish

A search takes the outcomes of sources as they come.  What is known about the order is
only that every source that is searched has one outcome: the sources of the outcomes that
came, of the requests that are open and of those that wait are together always the sources
that were to be searched, and nothing waits when nothing is open.

An answer that comes closes a request and lets waiting sources start, so with as many
answers as there are sources every source has its outcome.
-/

namespace BookRules

/-- Two transports give the same answers to the same requests, at whatever time. -/
def Transport.AnswersLike (transport transport' : Transport) : Prop :=
  ∀ earlier earlier' request, (transport earlier request).body = (transport' earlier' request).body

theorem Transport.AnswersLike.self {transport transport' : Transport}
    (halike : transport.AnswersLike transport') : transport.AnswersLike transport :=
  fun earlier earlier' request =>
    (halike earlier [] request).trans (halike earlier' [] request).symm

theorem Fetch.run_bind {β γ : Type} (m : Fetch β) (f : β → Fetch γ) (sent : List Request) :
    (m >>= f).run sent = (f (m.run sent).1).run (m.run sent).2 :=
  rfl

namespace Search

variable {transport transport' : Transport} {keyword : String} {source : Source}
  {sources sources' asked : List Source} {outcome : Outcome} {came : List Outcome}
  {done done' : List (Source × Outcome)}

/-! ## Outcomes and their sources -/

/-- What may become of a source that is searched, whatever was asked for before. -/
def Gives (transport : Transport) (keyword : String) (source : Source) (outcome : Outcome) :
    Prop :=
  ∃ sent, ((searchSource transport source keyword).run.run sent).1 = outcome

/-- Every one of the sources has finished once, in the order of `done`. -/
structure Completes (transport : Transport) (keyword : String) (sources : List Source)
    (done : List (Source × Outcome)) : Prop where
  sources : (done.map Prod.fst).Perm sources
  gives : ∀ entry ∈ done, Gives transport keyword entry.1 entry.2

theorem run_searchSource (transport : Transport) (source : Source) (keyword : String)
    (sent : List Request) :
    ((searchSource transport source keyword).run.run sent).1 =
      match Request.ofSearch source keyword firstPage with
      | .error fault => .error fault
      | .ok request => (transport sent request).body.map fun body =>
        Page.searchResults source body request.url keyword firstPage := by
  unfold searchSource
  cases Request.ofSearch source keyword firstPage with
  | error fault => rfl
  | ok request =>
      change ((Attempt.fetch transport request >>= fun body => pure
        (Page.searchResults source body request.url keyword firstPage) :
          Attempt (List FoundBook)).run.run sent).1 = _
      rw [Attempt.run_bind_pure, Attempt.run_fetch]
      rfl

theorem gives_ask (transport : Transport) (keyword : String) (source : Source)
    (sent : List Request) :
    Gives transport keyword source ((ask transport keyword source).run sent).1.2 := by
  refine ⟨sent, ?_⟩
  rw [run_searchSource]
  unfold ask
  cases Request.ofSearch source keyword firstPage with
  | error fault => rfl
  | ok request => rfl

theorem Gives.eq {outcome' : Outcome} (halike : transport.AnswersLike transport')
    (h : Gives transport keyword source outcome)
    (h' : Gives transport' keyword source outcome') : outcome = outcome' := by
  obtain ⟨sent, rfl⟩ := h
  obtain ⟨sent', rfl⟩ := h'
  rw [run_searchSource, run_searchSource]
  cases Request.ofSearch source keyword firstPage with
  | error fault => rfl
  | ok request =>
      dsimp only
      rw [halike sent sent' request]

theorem Gives.of_alike (halike : transport.AnswersLike transport')
    (h : Gives transport' keyword source outcome) : Gives transport keyword source outcome := by
  have hgives := Gives.eq halike ⟨[], rfl⟩ h
  exact ⟨[], hgives⟩

theorem Completes.perm (h : Completes transport keyword sources done) (hperm : done'.Perm done) :
    Completes transport keyword sources done' where
  sources := (hperm.map Prod.fst).trans h.sources
  gives entry hentry := h.gives entry (hperm.mem_iff.1 hentry)

/-! ## Runs of a search -/

/-- The outcomes are, in some order, those of the sources asked. -/
def Settled (transport : Transport) (keyword : String) (asked : List Source)
    (came : List Outcome) : Prop :=
  ∃ done, Completes transport keyword asked done ∧ came.Perm (done.map Prod.snd)

theorem Settled.perm {came' : List Outcome} (h : Settled transport keyword asked came)
    (hperm : came'.Perm came) : Settled transport keyword asked came' := by
  obtain ⟨done, hdone, hcame⟩ := h
  exact ⟨done, hdone, hperm.trans hcame⟩

theorem Settled.cons (h : Settled transport keyword asked came)
    (hgives : Gives transport keyword source outcome) :
    Settled transport keyword (source :: asked) (outcome :: came) := by
  obtain ⟨done, hdone, hcame⟩ := h
  refine ⟨(source, outcome) :: done, ⟨hdone.sources.cons source, ?_⟩, hcame.cons outcome⟩
  rintro entry (_ | ⟨_, hentry⟩)
  · exact hgives
  · exact hdone.gives entry hentry

theorem Settled.exists_completes (h : Settled transport keyword asked came) :
    ∃ done, Completes transport keyword asked done ∧ came = done.map Prod.snd := by
  obtain ⟨done, hdone, hcame⟩ := h
  have hcomp : Relation.Comp (· = List.map Prod.snd ·) List.Perm came done := by
    rwa [List.eq_map_comp_perm]
  obtain ⟨done', hcame', hperm⟩ := hcomp
  exact ⟨done', hdone.perm hperm, hcame'⟩

theorem map_outcome_insert (new : Open) (open_ : List Open) :
    ((insert new open_).map Open.outcome).Perm (new.outcome :: open_.map Open.outcome) := by
  induction open_ with
  | nil => exact List.Perm.refl _
  | cons first rest ih =>
      unfold insert
      split_ifs with htime
      · exact (ih.cons first.outcome).trans (List.Perm.swap _ _ _)
      · exact List.Perm.refl _

theorem length_insert (new : Open) (open_ : List Open) :
    (insert new open_).length = open_.length + 1 := by
  simpa using (map_outcome_insert new open_).length_eq

/-- Every source is accounted for: its outcome came, its request is open, or it waits, which
it only does while requests are open. -/
structure Accounts (transport : Transport) (keyword : String) (sources : List Source)
    (progress : Progress) : Prop where
  settled : ∃ asked, (asked ++ progress.waiting).Perm sources ∧
    Settled transport keyword asked (progress.open_.map Open.outcome ++ progress.done)
  idle : progress.open_ = [] → progress.waiting = []

theorem Accounts.perm {progress : Progress} (h : Accounts transport keyword sources progress)
    (hperm : sources.Perm sources') : Accounts transport keyword sources' progress where
  settled := by
    obtain ⟨asked, hasked, hsettled⟩ := h.settled
    exact ⟨asked, hasked.trans hperm, hsettled⟩
  idle := h.idle

theorem start_of_full {time : Nat} {open_ : List Open} {rest : List Source}
    (hfull : Limits.openRequests ≤ open_.length) (sent : List Request) :
    (start transport keyword time open_ came (source :: rest)).run sent =
      ({ open_, waiting := source :: rest, done := came }, sent) := by
  unfold start
  rw [if_pos hfull]
  rfl

/-- A source for which there is room is asked.  If it is done at once, its outcome comes last,
and otherwise its request is open. -/
theorem start_of_room {open_ : List Open} (hroom : ¬ Limits.openRequests ≤ open_.length)
    (time : Nat) (came : List Outcome) (source : Source) (rest : List Source)
    (sent : List Request) :
    ∃ outcome open' came' sent', Gives transport keyword source outcome ∧
      (open'.map Open.outcome ++ came').Perm (outcome :: (open_.map Open.outcome ++ came)) ∧
      open'.length ≤ open_.length + 1 ∧
      (start transport keyword time open_ came (source :: rest)).run sent =
        (start transport keyword time open' came' rest).run sent' := by
  have hgives := gives_ask transport keyword source sent
  rw [start, if_neg hroom, Fetch.run_bind]
  generalize (ask transport keyword source).run sent = answered at hgives ⊢
  obtain ⟨⟨delay, outcome⟩, sent'⟩ := answered
  dsimp only at hgives ⊢
  by_cases hdelay : delay = 0
  · rw [if_pos hdelay]
    refine ⟨outcome, open_, came ++ [outcome], sent', hgives, ?_, Nat.le_succ _, rfl⟩
    rw [← List.append_assoc]
    exact List.perm_append_singleton outcome _
  · rw [if_neg hdelay]
    refine ⟨outcome, insert ⟨time + delay, outcome⟩ open_, came, sent', hgives, ?_,
      Nat.le_of_eq (length_insert _ open_), rfl⟩
    exact (map_outcome_insert ⟨time + delay, outcome⟩ open_).append_right came

theorem accounts_start (time : Nat) {open_ : List Open} (waiting : List Source) (sent : List Request)
    (h : Settled transport keyword asked (open_.map Open.outcome ++ came)) :
    Accounts transport keyword (asked ++ waiting)
      ((start transport keyword time open_ came waiting).run sent).1 := by
  induction waiting generalizing asked open_ came sent with
  | nil => exact ⟨⟨asked, List.Perm.refl _, h⟩, fun _ => rfl⟩
  | cons source rest ih =>
      by_cases hfull : Limits.openRequests ≤ open_.length
      · rw [start_of_full hfull]
        refine ⟨⟨asked, List.Perm.refl _, h⟩, fun hidle => ?_⟩
        have hopen : open_ = [] := hidle
        rw [hopen] at hfull
        exact absurd hfull (by decide)
      · obtain ⟨outcome, open', came', sent', hgives, hcame, -, hrun⟩ :=
          start_of_room hfull time came source rest sent
        rw [hrun]
        exact (ih sent' ((h.cons hgives).perm hcame)).perm List.perm_middle.symm

theorem length_start_le (transport : Transport) (keyword : String) (time : Nat)
    (open_ : List Open) (came : List Outcome) (waiting : List Source) (sent : List Request) :
    ((start transport keyword time open_ came waiting).run sent).1.open_.length +
        ((start transport keyword time open_ came waiting).run sent).1.waiting.length ≤
      open_.length + waiting.length := by
  induction waiting generalizing open_ came sent with
  | nil => exact Nat.le_refl _
  | cons source rest ih =>
      by_cases hfull : Limits.openRequests ≤ open_.length
      · exact Nat.le_of_eq (by rw [start_of_full hfull])
      · obtain ⟨-, open', came', sent', -, -, hlength, hrun⟩ :=
          start_of_room hfull time came source rest sent
        rw [hrun, List.length_cons]
        have hrest := ih open' came' sent'
        omega

theorem Accounts.settled_of_idle {progress : Progress}
    (h : Accounts transport keyword sources progress) (hidle : progress.open_ = []) :
    Settled transport keyword sources progress.done := by
  obtain ⟨asked, hasked, done, hdone, hsettled⟩ := h.settled
  rw [h.idle hidle, List.append_nil] at hasked
  rw [hidle] at hsettled
  exact ⟨done, ⟨hdone.sources.trans hasked, hdone.gives⟩, hsettled⟩

/-- An answer that comes makes room for others, until every source has its outcome. -/
theorem settled_finish (fuel : Nat) {progress : Progress} (sent : List Request)
    (h : Accounts transport keyword sources progress)
    (hfuel : progress.open_.length + progress.waiting.length ≤ fuel) :
    Settled transport keyword sources ((finish transport keyword fuel progress).run sent).1 := by
  -- the sources that are open or wait become fewer with every answer
  induction fuel generalizing progress sent with
  | zero =>
      have hidle : progress.open_ = [] := List.length_eq_zero_iff.1 (by omega)
      exact h.settled_of_idle hidle
  | succ fuel ih =>
      unfold finish
      cases hopen : progress.open_ with
      | nil => exact h.settled_of_idle hopen
      | cons first rest =>
          dsimp only
          rw [Fetch.run_bind]
          obtain ⟨asked, hasked, hsettled⟩ := h.settled
          have hcame : (rest.map Open.outcome ++ (progress.done ++ [first.outcome])).Perm
              (progress.open_.map Open.outcome ++ progress.done) := by
            rw [hopen, ← List.append_assoc]
            exact List.perm_append_singleton first.outcome _
          refine ih _ ((accounts_start first.time progress.waiting sent
            (hsettled.perm hcame)).perm hasked) (Nat.le_trans (length_start_le ..) ?_)
          rw [hopen, List.length_cons] at hfuel
          omega

theorem settled_outcomes (transport : Transport) (keyword : String) (sources : List Source)
    (sent : List Request) :
    Settled transport keyword sources ((outcomes transport keyword sources).run sent).1 := by
  have hnone : Settled transport keyword [] [] :=
    ⟨[], ⟨List.Perm.refl _, by simp⟩, List.Perm.refl _⟩
  have haccounts : Accounts transport keyword ([] ++ sources)
      ((start transport keyword 0 [] [] sources).run sent).1 :=
    accounts_start 0 sources sent hnone
  unfold outcomes
  rw [Fetch.run_bind]
  refine settled_finish sources.length _ haccounts (Nat.le_trans (length_start_le ..) ?_)
  simp

end Search

end BookRules
