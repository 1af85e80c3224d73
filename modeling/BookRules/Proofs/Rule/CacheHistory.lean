import BookRules.Rule.Cache
import Mathlib.Data.List.Nodup

/-!
# Histories of the cache

A call of the cache meets a pipeline that is remembered, or reads one; a pipeline that is
read is added, and a full cache is emptied first.  Over every history of calls the cache
stays bounded, remembers each rule once, and never gives a number a second time.

A cache that comes later holds what was remembered before or what was read since.  So a
pipeline that was given is given again until a call empties the cache, and then no more.
-/

namespace BookRules.Rule

namespace Remembered

def key (entry : Remembered) : Content × String :=
  (entry.content, entry.rule)

theorem stages_eq_of_key {entry : Remembered} {key : Content × String} (h : entry.key = key) :
    entry.stages = pipeline key.1 key.2 := by
  rw [← h]
  exact entry.stages_eq

end Remembered

namespace Cache

variable {cache after : Cache} {key other : Content × String} {entry answer : Remembered}

/-- What a call gives and what it leaves behind. -/
inductive Fetched (cache : Cache) (key : Content × String) : Remembered → Cache → Prop
  | hit {entry : Remembered} (hmem : entry ∈ cache.entries) (hkey : entry.key = key) :
      Fetched cache key entry cache
  | added {entry : Remembered} (hmiss : ∀ old ∈ cache.entries, old.key ≠ key)
      (hroom : cache.entries.length < Limits.cachedPipelines) (hkey : entry.key = key)
      (hnumber : entry.number = cache.read) :
      Fetched cache key entry ⟨entry :: cache.entries, cache.read + 1⟩
  | emptied {entry : Remembered} (hmiss : ∀ old ∈ cache.entries, old.key ≠ key)
      (hfull : Limits.cachedPipelines ≤ cache.entries.length) (hkey : entry.key = key)
      (hnumber : entry.number = cache.read) :
      Fetched cache key entry ⟨[entry], cache.read + 1⟩

theorem find?_eq_some (h : cache.find? key.1 key.2 = some entry) :
    entry ∈ cache.entries ∧ entry.key = key := by
  have hsame := List.find?_some h
  simp only [Bool.and_eq_true, decide_eq_true_eq] at hsame
  exact ⟨List.mem_of_find?_eq_some h, Prod.ext hsame.1 hsame.2⟩

theorem find?_eq_none_iff :
    cache.find? key.1 key.2 = none ↔ ∀ old ∈ cache.entries, old.key ≠ key := by
  simp [find?, Remembered.key, Prod.ext_iff]

theorem fetched (cache : Cache) (key : Content × String) :
    Fetched cache key (cache.fetch key.1 key.2).1 (cache.fetch key.1 key.2).2 := by
  unfold fetch
  split
  next entry hfound =>
    obtain ⟨hmem, hkey⟩ := find?_eq_some hfound
    exact .hit hmem hkey
  next hnone =>
    have hmiss := find?_eq_none_iff.1 hnone
    by_cases hfull : Limits.cachedPipelines ≤ cache.entries.length
    · simp only [if_pos hfull]
      exact .emptied hmiss hfull rfl rfl
    · simp only [if_neg hfull]
      exact .added hmiss (Nat.lt_of_not_le hfull) rfl rfl

/-- What holds of a cache over every history. -/
structure Sound (cache : Cache) : Prop where
  bounded : cache.entries.length ≤ Limits.cachedPipelines
  distinct : (cache.entries.map Remembered.key).Nodup
  numbered : ∀ entry ∈ cache.entries, entry.number < cache.read
  counted : (cache.entries.map Remembered.number).Nodup

theorem sound_new : Sound {} where
  bounded := Nat.zero_le _
  distinct := List.nodup_nil
  numbered := by simp
  counted := List.nodup_nil

theorem Fetched.key_eq (h : Fetched cache key answer after) : answer.key = key := by
  cases h <;> assumption

theorem Fetched.mem (h : Fetched cache key answer after) : answer ∈ after.entries := by
  cases h with
  | hit hmem => exact hmem
  | added => exact List.mem_cons_self
  | emptied => exact List.mem_cons_self

theorem Fetched.sound (h : Fetched cache key answer after) (hsound : cache.Sound) :
    after.Sound := by
  cases h with
  | hit => exact hsound
  | added hmiss hroom hkey hnumber =>
      have hnewKey : answer.key ∉ cache.entries.map Remembered.key := by
        rw [hkey]
        simpa using hmiss
      have hnewNumber : answer.number ∉ cache.entries.map Remembered.number := by
        rw [hnumber, List.mem_map]
        rintro ⟨old, hold, hsame⟩
        exact absurd hsame (Nat.ne_of_lt (hsound.numbered old hold))
      have hnumbered : ∀ old ∈ cache.entries, old.number < cache.read + 1 :=
        fun old hold => Nat.lt_succ_of_lt (hsound.numbered old hold)
      exact ⟨hroom, List.nodup_cons.2 ⟨hnewKey, hsound.distinct⟩, by simpa [hnumber] using hnumbered,
        List.nodup_cons.2 ⟨hnewNumber, hsound.counted⟩⟩
  | emptied _ _ _ hnumber =>
      have hroom : 1 ≤ Limits.cachedPipelines := by decide
      exact ⟨hroom, List.nodup_singleton _, by simp [hnumber], List.nodup_singleton _⟩

theorem Sound.eq_of_key (hsound : cache.Sound) (hentry : entry ∈ cache.entries)
    (hanswer : answer ∈ cache.entries) (hkey : entry.key = answer.key) : entry = answer :=
  List.inj_on_of_nodup_map hsound.distinct hentry hanswer hkey

theorem Fetched.eq_of_mem (h : Fetched cache key answer after) (hsound : cache.Sound)
    (hentry : entry ∈ cache.entries) (hkey : entry.key = key) : answer = entry := by
  cases h with
  | hit hmem hanswer => exact hsound.eq_of_key hmem hentry (hanswer.trans hkey.symm)
  | added hmiss => exact absurd hkey (hmiss entry hentry)
  | emptied hmiss => exact absurd hkey (hmiss entry hentry)

theorem Fetched.number_eq (h : Fetched cache key answer after)
    (hmiss : ∀ old ∈ cache.entries, old.key ≠ key) : answer.number = cache.read := by
  cases h with
  | hit hmem hkey => exact absurd hkey (hmiss answer hmem)
  | added _ _ _ hnumber => exact hnumber
  | emptied _ _ _ hnumber => exact hnumber

/-- A cache that comes later: what it holds was there before or was read since. -/
def Later (cache after : Cache) : Prop :=
  cache.read ≤ after.read ∧
    ∀ entry ∈ after.entries, entry ∈ cache.entries ∨ cache.read ≤ entry.number

theorem Later.refl (cache : Cache) : Later cache cache :=
  ⟨Nat.le_refl _, fun _ => Or.inl⟩

theorem Later.trans {between : Cache} (h : Later cache between) (hafter : Later between after) :
    Later cache after := by
  refine ⟨Nat.le_trans h.1 hafter.1, fun entry hentry => ?_⟩
  rcases hafter.2 entry hentry with hbetween | hnew
  · exact h.2 entry hbetween
  · exact Or.inr (Nat.le_trans h.1 hnew)

theorem Fetched.later (h : Fetched cache key answer after) : Later cache after := by
  cases h with
  | hit => exact Later.refl cache
  | added _ _ _ hnumber =>
      refine ⟨Nat.le_succ _, fun entry hentry => ?_⟩
      rcases List.mem_cons.1 hentry with rfl | hold
      · exact Or.inr (Nat.le_of_eq hnumber.symm)
      · exact Or.inl hold
  | emptied _ _ _ hnumber =>
      refine ⟨Nat.le_succ _, fun entry hentry => ?_⟩
      obtain rfl := List.mem_singleton.1 hentry
      exact Or.inr (Nat.le_of_eq hnumber.symm)

end Cache

/-! ## Visits -/

/-- A call of a history, with the cache it met and the cache it left behind. -/
structure Visit where
  before : Cache
  key : Content × String
  answer : Remembered
  after : Cache

def visits (cache : Cache) : List (Content × String) → List Visit
  | [] => []
  | key :: keys =>
    let (answer, after) := cache.fetch key.1 key.2
    ⟨cache, key, answer, after⟩ :: visits after keys

namespace Visit

/-- The call found its rule in the cache. -/
def Hits (visit : Visit) : Prop :=
  ∃ old ∈ visit.before.entries, old.key = visit.key

/-- The cache was full, and nothing of it is left. -/
def Empties (visit : Visit) : Prop :=
  visit.before.entries.length = Limits.cachedPipelines ∧
    ∀ old ∈ visit.before.entries, old ∉ visit.after.entries

end Visit

variable {cache : Cache} {keys : List (Content × String)} {visit : Visit}
  {entry : Remembered} {key : Content × String} {front between back : List Visit}

theorem map_key_visits (cache : Cache) (keys : List (Content × String)) :
    (visits cache keys).map Visit.key = keys := by
  induction keys generalizing cache with
  | nil => rfl
  | cons key keys ih => simp [visits, ih]

structure Visit.Valid (visit : Visit) : Prop where
  sound : visit.before.Sound
  fetched : visit.before.Fetched visit.key visit.answer visit.after

theorem valid_of_mem_visits (hsound : cache.Sound) (h : visit ∈ visits cache keys) :
    visit.Valid := by
  induction keys generalizing cache with
  | nil => simp [visits] at h
  | cons key keys ih =>
      have hfetched := cache.fetched key
      rw [visits, List.mem_cons] at h
      rcases h with rfl | hlater
      · exact ⟨hsound, hfetched⟩
      · exact ih (hfetched.sound hsound) hlater

theorem Visit.Valid.number_lt (h : visit.Valid) : visit.answer.number < visit.after.read :=
  (h.fetched.sound h.sound).numbered visit.answer h.fetched.mem

theorem Visit.not_hits_iff :
    ¬ visit.Hits ↔ ∀ old ∈ visit.before.entries, old.key ≠ visit.key := by
  simp [Visit.Hits]

theorem Visit.Valid.empties_iff (h : visit.Valid) :
    visit.Empties ↔
      visit.before.entries.length = Limits.cachedPipelines ∧ ¬ visit.Hits := by
  obtain ⟨before, key, answer, after⟩ := visit
  obtain ⟨hsound, hfetched : before.Fetched key answer after⟩ := h
  unfold Visit.Empties Visit.Hits
  refine and_congr_right fun hfull => ?_
  cases hfetched with
  | hit hmem hkey =>
      exact iff_of_false (fun hgone => hgone answer hmem hmem)
        (fun hmisses => hmisses ⟨answer, hmem, hkey⟩)
  | added _ hroom => exact absurd hfull (Nat.ne_of_lt hroom)
  | emptied hmiss _ hkey =>
      refine iff_of_true ?_ ?_
      · intro old hold hkept
        obtain rfl := List.mem_singleton.1 hkept
        exact hmiss old hold hkey
      · rintro ⟨old, hold, hsame⟩
        exact hmiss old hold hsame

theorem Visit.Valid.mem_after (h : visit.Valid) (hkeeps : ¬ visit.Empties)
    (hentry : entry ∈ visit.before.entries) : entry ∈ visit.after.entries := by
  have hiff := h.empties_iff
  obtain ⟨before, key, answer, after⟩ := visit
  obtain ⟨hsound, hfetched : before.Fetched key answer after⟩ := h
  cases hfetched with
  | hit => exact hentry
  | added => exact List.mem_cons_of_mem answer hentry
  | emptied hmiss hfull =>
      refine absurd (hiff.2 ⟨?_, ?_⟩) hkeeps
      · exact Nat.le_antisymm hsound.bounded hfull
      · rintro ⟨old, hold, hkey⟩
        exact hmiss old hold hkey

theorem Visit.Valid.read_le_of_empties (h : visit.Valid) (hempties : visit.Empties)
    (hentry : entry ∈ visit.after.entries) : visit.before.read ≤ entry.number := by
  rcases h.fetched.later.2 entry hentry with hold | hnew
  · exact absurd hentry (hempties.2 entry hold)
  · exact hnew

theorem visits_eq_cons {rest : List Visit} (h : visits cache keys = visit :: rest) :
    visit.before = cache ∧ cache.Fetched visit.key visit.answer visit.after ∧
      ∃ later, rest = visits visit.after later := by
  cases keys with
  | nil => simp [visits] at h
  | cons key keys =>
      rw [visits] at h
      obtain ⟨rfl, rfl⟩ := List.cons.inj h
      exact ⟨rfl, cache.fetched key, keys, rfl⟩

theorem exists_visits_of_append (h : visits cache keys = front ++ visit :: back) :
    ∃ later, back = visits visit.after later := by
  induction front generalizing cache keys with
  | nil => exact (visits_eq_cons h).2.2
  | cons first front ih =>
      obtain ⟨-, -, later, hlater⟩ := visits_eq_cons h
      exact ih hlater.symm

theorem later_of_visits (h : visits cache keys = front ++ visit :: back) :
    cache.Later visit.before := by
  induction front generalizing cache keys with
  | nil =>
      rw [(visits_eq_cons h).1]
      exact Cache.Later.refl cache
  | cons first front ih =>
      obtain ⟨-, hfetched, later, hlater⟩ := visits_eq_cons h
      exact hfetched.later.trans (ih hlater.symm)

/-- What is remembered stays so until the cache is emptied. -/
theorem mem_before_of_visits (hsound : cache.Sound) (hentry : entry ∈ cache.entries)
    (h : visits cache keys = between ++ visit :: back) (hkeeps : ∀ v ∈ between, ¬ v.Empties) :
    entry ∈ visit.before.entries := by
  induction between generalizing cache keys with
  | nil =>
      rw [(visits_eq_cons h).1]
      exact hentry
  | cons first between ih =>
      obtain ⟨hbefore, hfetched, later, hlater⟩ := visits_eq_cons h
      obtain ⟨hfirst, hothers⟩ := List.forall_mem_cons.1 hkeeps
      have hvalid : first.Valid := ⟨hbefore ▸ hsound, hbefore ▸ hfetched⟩
      have hkept : entry ∈ first.after.entries := hvalid.mem_after hfirst (hbefore ▸ hentry)
      exact ih (hfetched.sound hsound) hkept hlater.symm hothers

theorem mem_after_or_read_le {first second : Visit} (hsecond : second.Valid)
    (h : visits first.after keys = between ++ second :: back) :
    second.answer ∈ first.after.entries ∨ first.after.read ≤ second.answer.number :=
  ((later_of_visits h).trans hsecond.fetched.later).2 second.answer hsecond.fetched.mem

theorem number_lt_of_not_hits {first second : Visit} (hfirst : first.Valid)
    (hsecond : second.Valid) (h : visits first.after keys = between ++ second :: back)
    (hmiss : ¬ second.Hits) : first.answer.number < second.answer.number := by
  rw [hsecond.fetched.number_eq (Visit.not_hits_iff.1 hmiss)]
  exact Nat.lt_of_lt_of_le hfirst.number_lt (later_of_visits h).1

theorem answer_eq_of_number {first second : Visit} (hfirst : first.Valid)
    (hsecond : second.Valid) (h : visits first.after keys = between ++ second :: back)
    (hnumber : second.answer.number = first.answer.number) : second.answer = first.answer := by
  have hcounted := (hfirst.fetched.sound hfirst.sound).counted
  rcases mem_after_or_read_le hsecond h with hgiven | hread
  · exact List.inj_on_of_nodup_map hcounted hgiven hfirst.fetched.mem hnumber
  · have hold := hfirst.number_lt
    omega

/-- A call gives again what an earlier call for its rule gave unless the cache was emptied in
between. -/
theorem number_eq_iff {first second : Visit} (hfirst : first.Valid) (hsecond : second.Valid)
    (hkey : first.key = second.key) (h : visits first.after keys = between ++ second :: back) :
    second.answer.number = first.answer.number ↔ ∀ v ∈ between, ¬ v.Empties := by
  have hsound := hfirst.fetched.sound hfirst.sound
  constructor
  · rintro hsame visit hvisit hempties
    -- what is given behind a call that empties the cache was read at or after that call
    obtain ⟨front, rest, rfl⟩ := List.append_of_mem hvisit
    have hvalid : visit.Valid := by
      have hmem : visit ∈ visits first.after keys := by simp [h]
      exact valid_of_mem_visits hsound hmem
    rw [List.append_assoc, List.cons_append] at h
    obtain ⟨later, hlater⟩ := exists_visits_of_append h
    have hold : first.answer.number < visit.before.read :=
      Nat.lt_of_lt_of_le hfirst.number_lt (later_of_visits h).1
    have hnew : visit.before.read ≤ second.answer.number := by
      rcases mem_after_or_read_le hsecond hlater.symm with hkept | hread
      · exact hvalid.read_le_of_empties hempties hkept
      · exact Nat.le_trans hvalid.fetched.later.1 hread
    omega
  · intro hkeeps
    have hkept := mem_before_of_visits hsound hfirst.fetched.mem h hkeeps
    rw [hsecond.fetched.eq_of_mem hsecond.sound hkept (hfirst.fetched.key_eq.trans hkey)]

/-- Over every history of a new cache each call gives the pipeline of its own rule.  The cache
stays bounded and holds the pipelines of its keys, and it is emptied by the calls that miss
while it is full.  A pipeline that is read gets a number of its own, so that equal numbers are
one pipeline; two calls for one rule give one pipeline exactly when no call in between
empties the cache. -/
theorem visits_of_new_cache (keys : List (Content × String)) :
    (visits {} keys).map Visit.key = keys ∧
    (∀ visit ∈ visits {} keys,
      visit.answer.stages = pipeline visit.key.1 visit.key.2 ∧
      visit.after.entries.length ≤ Limits.cachedPipelines ∧
      (∀ entry ∈ visit.after.entries, entry.stages = pipeline entry.key.1 entry.key.2) ∧
      (visit.after.entries.map Remembered.key).Nodup ∧
      (visit.Empties ↔
        visit.before.entries.length = Limits.cachedPipelines ∧ ¬ visit.Hits)) ∧
    ∀ front first between second back,
      visits {} keys = front ++ first :: (between ++ second :: back) →
      (¬ second.Hits → first.answer.number < second.answer.number) ∧
      (second.answer.number = first.answer.number → second.answer = first.answer) ∧
      (first.key = second.key →
        (second.answer.number = first.answer.number ↔ ∀ visit ∈ between, ¬ visit.Empties)) := by
  have hvalid : ∀ visit ∈ visits {} keys, visit.Valid :=
    fun _ => valid_of_mem_visits Cache.sound_new
  refine ⟨map_key_visits {} keys, fun visit hvisit => ?_, ?_⟩
  · have hmet := hvalid visit hvisit
    have hleft := hmet.fetched.sound hmet.sound
    exact ⟨Remembered.stages_eq_of_key hmet.fetched.key_eq, hleft.bounded,
      fun entry _ => entry.stages_eq, hleft.distinct, hmet.empties_iff⟩
  · intro front first between second back hhistory
    have hfirst : first.Valid := hvalid first (by simp [hhistory])
    have hsecond : second.Valid := hvalid second (by simp [hhistory])
    obtain ⟨later, hlater⟩ := exists_visits_of_append hhistory
    exact ⟨number_lt_of_not_hits hfirst hsecond hlater.symm,
      answer_eq_of_number hfirst hsecond hlater.symm,
      fun hkey => number_eq_iff hfirst hsecond hkey hlater.symm⟩

theorem numbers_of_repeated_call :
    (visits {} [(.markup, "a"), (.json, "a"), (.markup, "a")]).map (fun v => v.answer.number) =
      [0, 1, 0] := by
  have hpair := (visits_of_new_cache [(.markup, "a"), (.json, "a"), (.markup, "a")]).2.2
    [] _ [_] _ [] rfl
  have hsame := (hpair.2.2 rfl).2 fun visit hvisit hempties => by
    obtain rfl := List.mem_singleton.1 hvisit
    exact absurd hempties.1 (by decide)
  exact congrArg (fun number => [0, 1, number]) hsame

end BookRules.Rule
