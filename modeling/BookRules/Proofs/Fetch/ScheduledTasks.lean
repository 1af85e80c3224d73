import BookRules.Proofs.Fetch.Completions
import BookRules.Proofs.Fetch.Permits
import Mathlib.Data.List.ReduceOption

/-!
# A search as a run of its tasks

A search keeps open requests by the time of their answers, sources that wait and outcomes
that came.  This is a run of tasks: the open requests are those of tasks that ask, with the
outcomes that the answers will give them, the sources that wait are those of the last tasks,
and the outcomes that came are those collected.

The first of the sources that wait is asked whenever there is room, and there is room exactly
when a permit is free, so it is a run under a semaphore that lets tasks in as they come.
-/

namespace BookRules.Search

def sentIn (history : List Event) : List Request :=
  history.filterMap fun event => event.2.request?

def collectedIn (history : List Event) : List Outcome :=
  history.filterMap fun event => event.2.outcome?

/-- A task that was let in: it asks and will have an outcome, or its outcome is collected. -/
inductive Entered (keyword : String) : Source × Stage → Option Outcome → Prop
  | asking {source : Source} {request : Request} (body : Except Fault String) :
      Entered keyword (source, .asking request) (some (outcomeOf keyword source request body))
  | collected {source : Source} {outcome : Outcome} :
      Entered keyword (source, .collected outcome) none

def waitingTasks (sources : List Source) : Board :=
  sources.map fun source => (source, .waiting)

/-- The tasks stand as the search has it, `sent` being all requests made, and `earlier` those
made before it began. -/
structure Follows (keyword : String) (sources : List Source) (earlier sent : List Request)
    (progress : Progress) (history : List Event) (inside : Board)
    (promised : List (Option Outcome)) : Prop where
  runs : Runs keyword (Semaphore.firstCome Limits.openRequests) sources history
    (inside ++ waitingTasks progress.waiting)
  entered : List.Forall₂ (Entered keyword) inside promised
  open_ : (progress.open_.map Open.outcome).Perm promised.reduceOption
  done : progress.done = collectedIn history
  sent : sent = earlier ++ sentIn history

variable {transport : Transport} {keyword : String} {source : Source} {sources rest : List Source}
  {semaphore : Semaphore} {earlier sent : List Request} {progress : Progress}
  {open_ : List Open} {came : List Outcome} {history : List Event} {inside before after : Board}
  {promised : List (Option Outcome)} {stage stage' : Stage} {action : Action} {index : Nat}

/-! ## Tasks that were let in -/

theorem holds_of_entered (h : List.Forall₂ (Entered keyword) inside promised) :
    (inside.countP fun task => task.2.holds) = promised.reduceOption.length := by
  induction h with
  | nil => rfl
  | cons hfirst _ ih =>
      cases hfirst with
      | asking body =>
          rw [List.countP_cons_of_pos rfl, ih, List.reduceOption_cons_of_some, List.length_cons]
      | collected =>
          rw [List.countP_cons_of_neg Bool.false_ne_true, ih, List.reduceOption_cons_of_none]

theorem not_waiting_of_entered (h : List.Forall₂ (Entered keyword) inside promised) :
    ∀ task ∈ inside, task.2 ≠ .waiting ∧ task.2.isUnstarted = false := by
  induction h with
  | nil => simp
  | cons hfirst _ ih =>
      rw [List.forall_mem_cons]
      refine ⟨?_, ih⟩
      cases hfirst <;> simp [Stage.isUnstarted]

theorem returned_of_entered (h : List.Forall₂ (Entered keyword) inside promised)
    (hnone : promised.reduceOption = []) : Returned inside := by
  induction h with
  | nil => exact fun _ htask => absurd htask List.not_mem_nil
  | cons hfirst _ ih =>
      cases hfirst with
      | asking body => simp [List.reduceOption_cons_of_some] at hnone
      | collected =>
          rw [List.reduceOption_cons_of_none] at hnone
          rintro task (_ | ⟨_, htask⟩)
          · exact ⟨_, rfl⟩
          · exact ih hnone task htask

theorem holds_waitingTasks (sources : List Source) :
    ((waitingTasks sources).countP fun task => task.2.holds) = 0 := by
  simp [waitingTasks, Stage.holds]

/-! ## Steps of a run -/

theorem Runs.act (h : Runs keyword semaphore sources history (before ++ (source, stage) :: after))
    (hacts : Acts keyword source stage action stage')
    (hallowed : Allowed semaphore history before after action) :
    Runs keyword semaphore sources (history ++ [(before.length, action)])
      (before ++ (source, stage') :: after) :=
  .move h (.act hacts hallowed)

/-- The first task that waits gets a permit if there is room. -/
theorem Follows.enter
    (h : Follows keyword sources earlier sent ⟨open_, source :: rest, came⟩ history inside promised)
    (hroom : open_.length < Limits.openRequests) :
    Runs keyword (Semaphore.firstCome Limits.openRequests) sources
      (history ++ [(inside.length, .enter)]) (inside ++ (source, .inside) :: waitingTasks rest) := by
  have hruns := h.runs
  refine hruns.act .enter ⟨hruns.waits_iff.2 ⟨source, by simp [waitingTasks]⟩, ?_, ?_⟩
  · intro other hlt hwaits
    obtain ⟨_, htask⟩ := hruns.waits_iff.1 hwaits
    rw [List.getElem?_append_left hlt] at htask
    exact (not_waiting_of_entered h.entered _ (List.mem_of_getElem? htask)).1 rfl
  · have hopen : open_.length = promised.reduceOption.length := by
      simpa using h.open_.length_eq
    rw [hruns.entries_eq, List.countP_append, holds_of_entered h.entered, ← hopen,
      holds_waitingTasks]
    omega

/-- A request is answered. -/
theorem Runs.finishes {request : Request}
    (h : Runs keyword semaphore sources history (before ++ (source, .asking request) :: after))
    (hstarted : ∀ task ∈ before ++ after, task.2.isUnstarted = false)
    (body : Except Fault String) :
    Runs keyword semaphore sources
      (history ++ [(before.length, .answer body), (before.length, .leave),
        (before.length, .collect (outcomeOf keyword source request body))])
      (before ++ (source, .collected (outcomeOf keyword source request body)) :: after) := by
  have hanswered := h.act (.answer body) trivial
  have hleft := hanswered.act .leave trivial
  simpa using hleft.act .collect hstarted

/-- All tasks are started before any of them gets a permit. -/
theorem Runs.starts {front back : List Source}
    (h : Runs keyword semaphore sources history
      (waitingTasks front ++ back.map fun source => (source, .unstarted)))
    (hsent : sentIn history = []) (hcollected : collectedIn history = []) :
    ∃ history', Runs keyword semaphore sources history' (waitingTasks (front ++ back)) ∧
      sentIn history' = [] ∧ collectedIn history' = [] := by
  induction back generalizing front history with
  | nil => exact ⟨history, by simpa using h, hsent, hcollected⟩
  | cons source back ih =>
      have hstarted : ∀ task ∈ waitingTasks front, task.2.isUnstarted = false := by
        simp [waitingTasks, Stage.isUnstarted]
      have hruns := Runs.act h .start hstarted
      have hfront : waitingTasks front ++ (source, .waiting) ::
            back.map (fun source => (source, Stage.unstarted)) =
          waitingTasks (front ++ [source]) ++
            back.map fun source => (source, Stage.unstarted) := by
        simp [waitingTasks]
      rw [hfront] at hruns
      obtain ⟨history', hruns', hsent', hcollected'⟩ :=
        ih hruns (by simpa [sentIn] using hsent) (by simpa [collectedIn] using hcollected)
      exact ⟨history', by simpa using hruns', hsent', hcollected'⟩

theorem exists_follows (keyword : String) (sources : List Source) (sent : List Request) :
    ∃ history, Follows keyword sources sent sent { waiting := sources } history [] [] := by
  have hbegin : Runs keyword (Semaphore.firstCome Limits.openRequests) sources []
      (waitingTasks [] ++ sources.map fun source => (source, .unstarted)) := .begin
  obtain ⟨history, hruns, hsent, hcollected⟩ := hbegin.starts rfl rfl
  exact ⟨history, hruns, .nil, by simp, hcollected.symm, by simp [hsent]⟩

/-! ## Asking a source -/

/-- What a source does when it is searched is what its task does with a permit. -/
theorem exists_visit_of_searchSource (transport : Transport) (source : Source)
    (keyword : String) (sent : List Request) :
    ∃ visit outcome, Visit keyword source visit outcome ∧
      (searchSource transport source keyword).run.run sent =
        (outcome, sent ++ visit.filterMap Action.request?) := by
  unfold searchSource
  cases hrequest : Request.ofSearch source keyword firstPage with
  | error fault =>
      refine ⟨[], _, .givesUp hrequest, ?_⟩
      rw [List.filterMap_nil, List.append_nil]
      rfl
  | ok request =>
      refine ⟨_, _, .asks hrequest (transport sent request).body, ?_⟩
      change ((Attempt.fetch transport request >>= fun body => pure
        (Page.searchResults source body request.url keyword firstPage) :
          Attempt (List FoundBook)).run.run sent) = _
      rw [Attempt.run_bind_pure, Attempt.run_fetch]
      rfl

theorem run_ask_of_error {fault : Fault}
    (hrequest : Request.ofSearch source keyword firstPage = .error fault) (transport : Transport)
    (sent : List Request) :
    (ask transport keyword source).run sent = ((0, .error fault), sent) := by
  unfold ask
  rw [hrequest]
  rfl

theorem run_ask_of_ok {request : Request}
    (hrequest : Request.ofSearch source keyword firstPage = .ok request) (transport : Transport)
    (sent : List Request) :
    (ask transport keyword source).run sent =
      (((transport sent request).delay,
        outcomeOf keyword source request (transport sent request).body), sent ++ [request]) := by
  unfold ask
  rw [hrequest]
  rfl

theorem sentIn_append (history events : List Event) :
    sentIn (history ++ events) = sentIn history ++ sentIn events :=
  List.filterMap_append

theorem collectedIn_append (history events : List Event) :
    collectedIn (history ++ events) = collectedIn history ++ collectedIn events :=
  List.filterMap_append

theorem Follows.started
    (h : Follows keyword sources earlier sent progress history inside promised) :
    ∀ task ∈ inside ++ waitingTasks progress.waiting, task.2.isUnstarted = false := by
  rw [List.forall_mem_append]
  refine ⟨fun task htask => (not_waiting_of_entered h.entered task htask).2, ?_⟩
  simp [waitingTasks, Stage.isUnstarted]

/-- The first task that waits joins those that were let in. -/
theorem Follows.letIn {task : Source × Stage} {promise : Option Outcome} {events : List Event}
    {open' : List Open}
    (h : Follows keyword sources earlier sent ⟨open_, source :: rest, came⟩ history inside promised)
    (hruns : Runs keyword (Semaphore.firstCome Limits.openRequests) sources (history ++ events)
      (inside ++ task :: waitingTasks rest))
    (hentered : Entered keyword task promise)
    (hopen : (open'.map Open.outcome).Perm (promise.toList ++ open_.map Open.outcome)) :
    Follows keyword sources earlier (sent ++ sentIn events)
      ⟨open', rest, came ++ collectedIn events⟩ (history ++ events) (inside ++ [task])
      (promised ++ [promise]) where
  runs := by simpa using hruns
  entered := List.rel_append h.entered (.cons hentered .nil)
  open_ := by
    have hpromised : (promised ++ [promise]).reduceOption =
        promised.reduceOption ++ promise.toList := by
      cases promise <;> simp [List.reduceOption_append]
    rw [hpromised]
    exact (hopen.trans (h.open_.append_left _)).trans List.perm_append_comm
  done := by
    have hdone : came = collectedIn history := h.done
    rw [collectedIn_append, ← hdone]
  sent := by rw [sentIn_append, h.sent, List.append_assoc]

/-- A source for which there is room is asked. -/
theorem Follows.of_room
    (h : Follows keyword sources earlier sent ⟨open_, source :: rest, came⟩ history inside promised)
    (hroom : ¬ Limits.openRequests ≤ open_.length) (transport : Transport) (time : Nat) :
    ∃ open' came' sent' history' inside' promised',
      (start transport keyword time open_ came (source :: rest)).run sent =
        (start transport keyword time open' came' rest).run sent' ∧
      Follows keyword sources earlier sent' ⟨open', rest, came'⟩ history' inside' promised' := by
  have hinside := h.enter (Nat.lt_of_not_le hroom)
  have hstarted : ∀ task ∈ inside ++ waitingTasks rest, task.2.isUnstarted = false :=
    fun task htask => h.started task (mem_of_mem_append htask)
  rw [start, if_neg hroom, Fetch.run_bind]
  cases hrequest : Request.ofSearch source keyword firstPage with
  | error fault =>
      have hcollected := (hinside.act (.giveUp hrequest) trivial).act .collect hstarted
      rw [List.append_assoc, List.append_assoc] at hcollected
      have hnext := h.letIn hcollected .collected (List.Perm.refl _)
      rw [run_ask_of_error hrequest]
      exact ⟨_, _, _, _, _, _, rfl, by simpa [sentIn, collectedIn] using hnext⟩
  | ok request =>
      have hasking := hinside.act (.send hrequest) trivial
      rw [run_ask_of_ok hrequest]
      dsimp only
      by_cases hdelay : (transport sent request).delay = 0
      · have hcollected := hasking.finishes hstarted (transport sent request).body
        rw [List.append_assoc, List.append_assoc] at hcollected
        have hnext := h.letIn hcollected .collected (List.Perm.refl _)
        rw [if_pos hdelay]
        exact ⟨_, _, _, _, _, _, rfl, by simpa [sentIn, collectedIn] using hnext⟩
      · rw [List.append_assoc] at hasking
        rw [if_neg hdelay]
        have hopen : ((insert ⟨time + (transport sent request).delay,
            outcomeOf keyword source request (transport sent request).body⟩ open_).map
              Open.outcome).Perm _ := map_outcome_insert _ open_
        have hnext := h.letIn hasking (.asking (transport sent request).body) hopen
        exact ⟨_, _, _, _, _, _, rfl, by simpa [sentIn, collectedIn] using hnext⟩

theorem Follows.exists_start {waiting : List Source}
    (h : Follows keyword sources earlier sent ⟨open_, waiting, came⟩ history inside promised)
    (transport : Transport) (time : Nat) :
    ∃ progress' sent' history' inside' promised',
      (start transport keyword time open_ came waiting).run sent = (progress', sent') ∧
      Follows keyword sources earlier sent' progress' history' inside' promised' ∧
      (progress'.open_ = [] → progress'.waiting = []) := by
  induction waiting generalizing open_ came sent history inside promised with
  | nil => exact ⟨_, _, _, _, _, rfl, h, fun _ => rfl⟩
  | cons source rest ih =>
      by_cases hfull : Limits.openRequests ≤ open_.length
      · refine ⟨_, _, _, _, _, start_of_full hfull sent, h, fun hidle => ?_⟩
        have hopen : open_ = [] := hidle
        rw [hopen] at hfull
        exact absurd hfull (by decide)
      · obtain ⟨open', came', sent', history', inside', promised', hrun, hnext⟩ :=
          h.of_room hfull transport time
        rw [hrun]
        exact ih hnext

/-- An outcome that is promised will be that of a task that asks. -/
theorem exists_asking {outcome : Outcome}
    (h : List.Forall₂ (Entered keyword) inside promised)
    (hpromised : outcome ∈ promised.reduceOption) :
    ∃ before source request body after before' after',
      inside = before ++ (source, .asking request) :: after ∧
      promised = before' ++ some outcome :: after' ∧
      outcome = outcomeOf keyword source request body ∧
      List.Forall₂ (Entered keyword) before before' ∧
      List.Forall₂ (Entered keyword) after after' := by
  obtain ⟨before', after', rfl⟩ := List.append_of_mem (List.reduceOption_mem_iff.1 hpromised)
  have hfront := List.forall₂_take_append _ _ _ h
  have hback := List.forall₂_drop_append _ _ _ h
  obtain ⟨task, after, htask, hafter, hdrop⟩ := List.forall₂_cons_right_iff.1 hback
  have hinside : inside = inside.take before'.length ++ task :: after := by
    rw [← hdrop, List.take_append_drop]
  cases htask with
  | @asking source request body =>
      exact ⟨_, source, request, body, after, before', after', hinside, rfl, rfl, hfront, hafter⟩

/-- The task of the request that is answered first hands over its outcome. -/
theorem Follows.exists_answer {first : Open} {waiting : List Source}
    (h : Follows keyword sources earlier sent ⟨first :: open_, waiting, came⟩ history inside
      promised) :
    ∃ history' inside' promised', Follows keyword sources earlier sent
      ⟨open_, waiting, came ++ [first.outcome]⟩ history' inside' promised' := by
  have hstarted := h.started
  obtain ⟨hruns, hentered, hopen, hdone, hsent⟩ := h
  rw [List.map_cons] at hopen
  obtain ⟨before, source, request, body, after, before', after', rfl, rfl, houtcome, hfront, hback⟩ :=
    exists_asking hentered (hopen.mem_iff.1 List.mem_cons_self)
  rw [List.append_assoc, List.cons_append] at hruns hstarted
  have hfinished :=
    hruns.finishes (fun task htask => hstarted task (mem_of_mem_append htask)) body
  rw [← houtcome] at hfinished
  refine ⟨_, before ++ (source, .collected first.outcome) :: after, before' ++ none :: after',
    by simpa using hfinished, List.rel_append hfront (.cons .collected hback), ?_, ?_, ?_⟩
  · rw [List.reduceOption_append, List.reduceOption_cons_of_some] at hopen
    rw [List.reduceOption_append, List.reduceOption_cons_of_none]
    exact (hopen.trans List.perm_middle).cons_inv
  · have hcame : came = collectedIn history := hdone
    rw [collectedIn_append, ← hcame]
    rfl
  · rw [sentIn_append, hsent]
    simp [sentIn]

/-- When no request is open and nobody waits all outcomes are collected. -/
theorem Follows.returned
    (h : Follows keyword sources earlier sent progress history inside promised)
    (hopen : progress.open_ = []) (hwaiting : progress.waiting = []) :
    ∃ board, Runs keyword (Semaphore.firstCome Limits.openRequests) sources history board ∧
      Returned board ∧ progress.done = collectedIn history ∧ sent = earlier ++ sentIn history := by
  have hruns := h.runs
  rw [hwaiting, waitingTasks, List.map_nil, List.append_nil] at hruns
  have hnone : promised.reduceOption = [] := by
    have hperm := h.open_
    rw [hopen, List.map_nil] at hperm
    exact hperm.nil_eq.symm
  exact ⟨inside, hruns, returned_of_entered h.entered hnone, h.done, h.sent⟩

/-- Answers come until every outcome is collected. -/
theorem Follows.exists_finish (transport : Transport) (fuel : Nat)
    (h : Follows keyword sources earlier sent progress history inside promised)
    (hidle : progress.open_ = [] → progress.waiting = [])
    (hfuel : progress.open_.length + progress.waiting.length ≤ fuel) :
    ∃ history board, Runs keyword (Semaphore.firstCome Limits.openRequests) sources history board ∧
      Returned board ∧
      (finish transport keyword fuel progress).run sent =
        (collectedIn history, earlier ++ sentIn history) := by
  induction fuel generalizing sent progress history inside promised with
  | zero =>
      have hopen : progress.open_ = [] := List.length_eq_zero_iff.1 (by omega)
      obtain ⟨board, hruns, hreturned, hdone, hsent⟩ := h.returned hopen (hidle hopen)
      refine ⟨history, board, hruns, hreturned, ?_⟩
      rw [finish, ← hdone, ← hsent]
      rfl
  | succ fuel ih =>
      obtain ⟨open_, waiting, came⟩ := progress
      cases open_ with
      | nil =>
          obtain ⟨board, hruns, hreturned, hdone, hsent⟩ := h.returned rfl (hidle rfl)
          refine ⟨history, board, hruns, hreturned, ?_⟩
          rw [finish, ← hdone, ← hsent]
          rfl
      | cons first rest =>
          obtain ⟨history', inside', promised', hanswer⟩ := h.exists_answer
          obtain ⟨progress', sent', _, _, _, hrun, hnext, hidle'⟩ :=
            hanswer.exists_start transport first.time
          have hlength := length_start_le transport keyword first.time rest
            (came ++ [first.outcome]) waiting sent
          rw [hrun] at hlength
          rw [finish, Fetch.run_bind, hrun]
          refine ih hnext hidle' (Nat.le_trans hlength ?_)
          simp only [List.length_cons] at hfuel
          omega

/-- A search is a run of its tasks until all outcomes are collected. -/
theorem outcomes_runs (transport : Transport) (keyword : String) (sources : List Source)
    (sent : List Request) :
    ∃ history board, Runs keyword (Semaphore.firstCome Limits.openRequests) sources history board ∧
      Returned board ∧
      (outcomes transport keyword sources).run sent =
        (collectedIn history, sent ++ sentIn history) := by
  obtain ⟨_, hbegin⟩ := exists_follows keyword sources sent
  obtain ⟨progress, sent', _, _, _, hrun, hstarted, hidle⟩ := hbegin.exists_start transport 0
  have hlength := length_start_le transport keyword 0 [] [] sources sent
  rw [hrun, List.length_nil, Nat.zero_add] at hlength
  rw [outcomes, Fetch.run_bind, hrun]
  exact hstarted.exists_finish transport sources.length hidle hlength

/-! ## Main result -/

/-- In every run of a search no more requests are open than the limit.  Every source that can
be searched has one task, of which all actions are part of one life, which is what the source
does when it is searched: it makes one request, or none if there is none to make, and when
the search returns its outcome is collected.  Runs end, and they end with all outcomes if the
semaphore gives out the permits it has; a search is such a run. -/
theorem search_runs_bounded {semaphore : Semaphore}
    (hbounded : semaphore.Bounded Limits.openRequests) (sources : List Source) (keyword : String) :
    (∀ history board,
      Runs keyword semaphore (sources.filter Source.isSearchable) history board →
        (board.countP fun task => task.2.isAsking) ≤ Limits.openRequests ∧
        (∀ index source, (sources.filter Source.isSearchable)[index]? = some source →
          ∃ life outcome, Life keyword source life outcome ∧ actionsOf index history <+: life ∧
            (Returned board → actionsOf index history = life)) ∧
        (∀ event ∈ history, event.1 < (sources.filter Source.isSearchable).length) ∧
        history.length ≤ 6 * (sources.filter Source.isSearchable).length ∧
        (semaphore.Serves Limits.openRequests → ¬ Returned board →
          ∃ event board', Moves keyword semaphore history board event board')) ∧
      (∀ transport source sent, ∃ visit outcome, Visit keyword source visit outcome ∧
        (searchSource transport source keyword).run.run sent =
          (outcome, sent ++ visit.filterMap Action.request?)) ∧
      ∀ transport sent, ∃ history board,
        Runs keyword (Semaphore.firstCome Limits.openRequests)
          (sources.filter Source.isSearchable) history board ∧
        Returned board ∧
        (searchAll transport sources keyword).run sent =
          (merge (collectedIn history), sent ++ sentIn history) := by
  refine ⟨fun history board hruns => ⟨hruns.countP_isAsking_le hbounded,
      fun index source hsource => hruns.exists_life hsource, hruns.index_lt, hruns.length_le,
      fun hserves => hruns.exists_moves hserves (by decide)⟩,
    fun transport source sent => exists_visit_of_searchSource transport source keyword sent, ?_⟩
  intro transport sent
  obtain ⟨history, board, hruns, hreturned, hrun⟩ :=
    outcomes_runs transport keyword (sources.filter Source.isSearchable) sent
  refine ⟨history, board, hruns, hreturned, ?_⟩
  rw [searchAll, Fetch.run_bind, hrun]
  rfl

def finder : Source where
  url := "book:shelf"
  searchUrl := some "book:find"
  search := { bookList := some "list" }

/-- The request of the only source is open, and the run goes on. -/
theorem search_runs_bounded_asking :
    (Semaphore.firstCome Limits.openRequests).Bounded Limits.openRequests ∧
      ∃ history board,
        Runs "moon" (Semaphore.firstCome Limits.openRequests) ([finder].filter Source.isSearchable)
          history board ∧
        sentIn history = [{ url := "book:find" }] ∧
        (board.countP fun task => task.2.isAsking) = 1 ∧ 1 ≤ Limits.openRequests ∧
        ∃ event board', Moves "moon" (Semaphore.firstCome Limits.openRequests) history board event
          board' := by
  have hbounded := Semaphore.bounded_firstCome Limits.openRequests
  have hrequest : Request.ofSearch finder "moon" firstPage = .ok { url := "book:find" } := rfl
  have hbegin : Runs "moon" (Semaphore.firstCome Limits.openRequests)
      ([finder].filter Source.isSearchable) [] ([] ++ (finder, .unstarted) :: []) := .begin
  have hwaiting := hbegin.act .start (by simp [Allowed])
  have hinside := hwaiting.act .enter ⟨rfl, by simp, by decide⟩
  have hasking := hinside.act (.send hrequest) trivial
  obtain ⟨hopen, -, -, -, hgoes⟩ := (search_runs_bounded hbounded [finder] "moon").1 _ _ hasking
  refine ⟨hbounded, _, _, hasking, rfl, rfl, hopen, hgoes (Semaphore.serves_firstCome _) ?_⟩
  intro hreturned
  obtain ⟨_, houtcome⟩ := hreturned _ List.mem_cons_self
  cases houtcome

end BookRules.Search
