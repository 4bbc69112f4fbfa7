import ScaphandreFormal.Foundation.Ranking
import ScaphandreFormal.Sensors.TrackerInvariant
import Mathlib.Algebra.Order.Field.Rat
import Mathlib.Data.List.Induction
import Mathlib.Tactic.Push

/-!
# The top consumers

`get_top_consumers` visits the tracked processes once and keeps a sorted list of
at most `top` of them.  A process is let in when fewer than `top` of those kept
have a raw CPU usage above its share; the list is sorted by shares.  Usage and
share are different quantities: a process may be turned away by processes whose
shares are smaller than its own.
-/

namespace ScaphandreFormal.Sensors

open Foundation

variable {Trace : Type}

/-- What `sysinfo` reports of a process, and what `IProcess::new` reads of it. -/
structure SysinfoProcess (Trace : Type) where
  cpuUsage : ℚ
  seen : IProcess Trace

/-- The tables of `sysinfo`. -/
structure Sysinfo (Trace : Type) where
  globalCpuUsage : ℚ
  process : Nat → Option (SysinfoProcess Trace)

namespace ProcessTracker

/-- `get_cpu_usage_percentage`: the share of a process. -/
def getCpuUsagePercentage (sysinfo : Sysinfo Trace) (pid nbCores : Nat) : ℚ :=
  match sysinfo.process pid with
  | some process => (sysinfo.globalCpuUsage * process.cpuUsage / 100) / nbCores
  | none => 0

/-- `IProcess::new` of a process known by the pid. -/
def newConsumer (pid : Nat) (process : SysinfoProcess Trace) : IProcess Trace :=
  { process.seen with pid := pid }

/-- The raw usage of the consumer is above the share. -/
def usesMore (sysinfo : Sysinfo Trace) (diff : ℚ) (consumer : IProcess Trace × ℚ) : Bool :=
  match sysinfo.process consumer.1.pid with
  | some process => diff < process.cpuUsage
  | none => false

/-- The body of the loop. -/
def consider (sysinfo : Sysinfo Trace) (nbCores top : Nat)
    (consumers : List (IProcess Trace × ℚ)) (vector : List (ProcessRecord Trace)) :
    List (IProcess Trace × ℚ) :=
  match vector with
  | first :: _ :: _ =>
      let pid := first.process.pid
      let diff := getCpuUsagePercentage sysinfo pid nbCores
      if consumers.countP (usesMore sysinfo diff) < top then
        match sysinfo.process pid with
        | some process =>
            let sorted := sortByRank Prod.snd (consumers ++ [(newConsumer pid process, diff)])
            if top < sorted.length then sorted.dropLast else sorted
        | none => consumers
      else consumers
  | _ => consumers

def getTopConsumers (sysinfo : Sysinfo Trace) (top : Nat) (tracker : ProcessTracker Trace) :
    List (IProcess Trace × ℚ) :=
  tracker.procs.foldl (consider sysinfo tracker.nbCores top) []

/-! ## Candidates -/

/-- A candidate: a vector with more than one record of a process that `sysinfo` knows, with
its share. -/
def candidate (sysinfo : Sysinfo Trace) (nbCores : Nat) (vector : List (ProcessRecord Trace)) :
    Option (IProcess Trace × ℚ) :=
  match vector with
  | first :: _ :: _ =>
      (sysinfo.process first.process.pid).map fun process =>
        (newConsumer first.process.pid process,
          getCpuUsagePercentage sysinfo first.process.pid nbCores)
  | _ => none

def candidates (sysinfo : Sysinfo Trace) (tracker : ProcessTracker Trace) :
    List (IProcess Trace × ℚ) :=
  tracker.procs.filterMap (candidate sysinfo tracker.nbCores)

/-- One candidate against the consumers kept so far. -/
def letIn (sysinfo : Sysinfo Trace) (top : Nat) (consumers : List (IProcess Trace × ℚ))
    (late : IProcess Trace × ℚ) : List (IProcess Trace × ℚ) :=
  if consumers.countP (usesMore sysinfo late.2) < top then
    best Prod.snd top (consumers ++ [late])
  else consumers

theorem consider_eq {sysinfo : Sysinfo Trace} {top : Nat} (nbCores : Nat)
    {consumers : List (IProcess Trace × ℚ)} (short : consumers.length ≤ top)
    (vector : List (ProcessRecord Trace)) :
    consider sysinfo nbCores top consumers vector =
      ((candidate sysinfo nbCores vector).map (letIn sysinfo top consumers)).getD consumers := by
  match vector with
  | [] => rfl
  | [_] => rfl
  | first :: _ :: _ =>
      cases known : sysinfo.process first.process.pid with
      | none => simp [consider, candidate, known]
      | some process =>
          simp only [consider, candidate, known, Option.map_some, Option.getD_some, letIn, best]
          generalize getCpuUsagePercentage sysinfo first.process.pid nbCores = diff
          have longer : (sortByRank Prod.snd
              (consumers ++ [(newConsumer first.process.pid process, diff)])).length =
                consumers.length + 1 := by
            simp [sortByRank]
          split
          · split
            · rw [List.dropLast_eq_take]
              congr 1
              omega
            · rw [List.take_of_length_le (by omega)]
          · rfl

theorem length_letIn_le {sysinfo : Sysinfo Trace} {top : Nat}
    {consumers : List (IProcess Trace × ℚ)} (short : consumers.length ≤ top)
    (late : IProcess Trace × ℚ) : (letIn sysinfo top consumers late).length ≤ top := by
  unfold letIn
  split
  · rw [length_best]
    exact Nat.min_le_left _ _
  · exact short

/-- The loop over the vectors is a loop over the candidates. -/
theorem foldl_consider {sysinfo : Sysinfo Trace} {top : Nat} (nbCores : Nat)
    {consumers : List (IProcess Trace × ℚ)} (short : consumers.length ≤ top)
    (procs : List (List (ProcessRecord Trace))) :
    procs.foldl (consider sysinfo nbCores top) consumers =
      (procs.filterMap (candidate sysinfo nbCores)).foldl (letIn sysinfo top) consumers := by
  induction procs generalizing consumers with
  | nil => rfl
  | cons vector rest ih =>
      rw [List.foldl_cons, consider_eq nbCores short]
      cases is : candidate sysinfo nbCores vector with
      | none =>
          rw [List.filterMap_cons_none is]
          exact ih short
      | some late =>
          rw [List.filterMap_cons_some is, List.foldl_cons]
          exact ih (length_letIn_le short late)

/-! ## The selection -/

/-- The result is the top of the candidates. -/
def ReturnsTop (sysinfo : Sysinfo Trace) (top : Nat) (tracker : ProcessTracker Trace) : Prop :=
  IsBest Prod.snd top (tracker.candidates sysinfo) (tracker.getTopConsumers sysinfo top)

/-- A candidate finds, among those visited before it, `top` that rank best; if they all use
more than its share then none of them has a smaller share. -/
def NotOutranked (sysinfo : Sysinfo Trace) (top : Nat) (earlier : List (IProcess Trace × ℚ))
    (late : IProcess Trace × ℚ) : Prop :=
  top ≤ earlier.length → (∀ kept ∈ best Prod.snd top earlier, usesMore sysinfo late.2 kept = true) →
    ∀ kept ∈ best Prod.snd top earlier, late.2 ≤ kept.2

/-- This holds of each candidate when its turn comes. -/
def FairlyVisited (sysinfo : Sysinfo Trace) (top : Nat)
    (candidates : List (IProcess Trace × ℚ)) : Prop :=
  ∀ earlier late, earlier ++ [late] <+: candidates → NotOutranked sysinfo top earlier late

section Selection

variable {sysinfo : Sysinfo Trace} {top : Nat} {earlier : List (IProcess Trace × ℚ)}
  {late : IProcess Trace × ℚ}

theorem fairlyVisited_concat :
    FairlyVisited sysinfo top (earlier ++ [late]) ↔
      FairlyVisited sysinfo top earlier ∧ NotOutranked sysinfo top earlier late := by
  constructor
  · intro fair
    refine ⟨?_, fair earlier late List.prefix_rfl⟩
    intro before next visited
    exact fair before next (visited.trans (List.prefix_append _ _))
  · rintro ⟨fair, notOutranked⟩ before next visited
    rcases List.prefix_concat_iff.mp visited with same | sooner
    · obtain ⟨rfl, only⟩ := List.append_inj' same rfl
      cases only
      exact notOutranked
    · exact fair before next sooner

theorem letIn_of_notOutranked (notOutranked : NotOutranked sysinfo top earlier late) :
    letIn sysinfo top (best Prod.snd top earlier) late =
      best Prod.snd top (earlier ++ [late]) := by
  unfold letIn
  split
  · exact (best_concat Prod.snd top earlier late).symm
  · rename_i turnedAway
    have few : (best Prod.snd top earlier).countP (usesMore sysinfo late.2) ≤
        (best Prod.snd top earlier).length := List.countP_le_length
    have count := length_best Prod.snd top earlier
    have all : (best Prod.snd top earlier).countP (usesMore sysinfo late.2) =
        (best Prod.snd top earlier).length := by omega
    have full : top ≤ earlier.length := by omega
    rw [best_concat_of_le Prod.snd full (notOutranked full (List.countP_eq_length.mp all))]

theorem not_isBest_letIn (outranked : ¬ NotOutranked sysinfo top earlier late) :
    ¬ IsBest Prod.snd top (earlier ++ [late])
      (letIn sysinfo top (best Prod.snd top earlier) late) := by
  unfold NotOutranked at outranked
  push Not at outranked
  obtain ⟨full, all, item, kept, higher⟩ := outranked
  have turnedAway : ¬ (best Prod.snd top earlier).countP (usesMore sysinfo late.2) < top := by
    rw [List.countP_eq_length.mpr all, length_best]
    omega
  rw [letIn, if_neg turnedAway]
  exact not_isBest_concat Prod.snd (isBest_best Prod.snd top earlier) kept higher

end Selection

/-- As long as the visit is fair the loop keeps the best of what it has seen. -/
theorem getTopConsumers_of_fairlyVisited {sysinfo : Sysinfo Trace} {top : Nat}
    {tracker : ProcessTracker Trace}
    (fair : FairlyVisited sysinfo top (tracker.candidates sysinfo)) :
    tracker.getTopConsumers sysinfo top = best Prod.snd top (tracker.candidates sysinfo) := by
  have fold : ∀ seen, FairlyVisited sysinfo top seen →
      seen.foldl (letIn sysinfo top) [] = best Prod.snd top seen := by
    intro seen
    induction seen using List.reverseRecOn with
    | nil =>
        intro _
        simp [best, sortByRank]
    | append_singleton earlier late ih =>
        intro fairSeen
        obtain ⟨fairEarlier, notOutranked⟩ := fairlyVisited_concat.mp fairSeen
        rw [List.foldl_concat, ih fairEarlier, letIn_of_notOutranked notOutranked]
  rw [getTopConsumers, foldl_consider _ (Nat.zero_le _)]
  exact fold _ fair

theorem returnsTop_of_fairlyVisited {sysinfo : Sysinfo Trace} {top : Nat}
    {tracker : ProcessTracker Trace}
    (fair : FairlyVisited sysinfo top (tracker.candidates sysinfo)) :
    ReturnsTop sysinfo top tracker := by
  rw [ReturnsTop, getTopConsumers_of_fairlyVisited fair]
  exact isBest_best Prod.snd top _

/-- Where the result is the top for every prefix of the vectors, the visit was fair. -/
theorem fairlyVisited_of_prefixes {sysinfo : Sysinfo Trace} {top nbCores maxRecords : Nat}
    {procs : List (List (ProcessRecord Trace))}
    (prefixes : ∀ visited, visited <+: procs →
      ReturnsTop sysinfo top ⟨visited, nbCores, maxRecords⟩) :
    FairlyVisited sysinfo top (procs.filterMap (candidate sysinfo nbCores)) := by
  induction procs using List.reverseRecOn with
  | nil =>
      intro earlier late visited
      exact absurd (List.prefix_nil.mp visited) (by simp)
  | append_singleton procs vector ih =>
      have fair := ih fun visited isPrefix =>
        prefixes visited (isPrefix.trans (List.prefix_append _ _))
      have result : procs.foldl (consider sysinfo nbCores top) [] =
          best Prod.snd top (procs.filterMap (candidate sysinfo nbCores)) :=
        @getTopConsumers_of_fairlyVisited _ _ _ ⟨procs, nbCores, maxRecords⟩ fair
      rw [List.filterMap_append]
      cases is : candidate sysinfo nbCores vector with
      | none => simpa [is] using fair
      | some late =>
          rw [List.filterMap_cons_some is, List.filterMap_nil, fairlyVisited_concat]
          refine ⟨fair, ?_⟩
          by_contra outranked
          have whole := prefixes (procs ++ [vector]) List.prefix_rfl
          rw [ReturnsTop, candidates, List.filterMap_append, List.filterMap_cons_some is,
            List.filterMap_nil, getTopConsumers, List.foldl_concat, result,
            consider_eq nbCores (by rw [length_best]; exact Nat.min_le_left _ _), is] at whole
          exact not_isBest_letIn outranked whole

/-- The result is the top of the candidates when the visit is fair; and the visit is fair
just when the result is the top for every prefix of the vectors. -/
theorem returnsTop_and_prefixes_iff (sysinfo : Sysinfo Trace) (top : Nat)
    (tracker : ProcessTracker Trace) :
    (FairlyVisited sysinfo top (tracker.candidates sysinfo) → ReturnsTop sysinfo top tracker) ∧
      ((∀ visited, visited <+: tracker.procs →
          ReturnsTop sysinfo top { tracker with procs := visited }) ↔
        FairlyVisited sysinfo top (tracker.candidates sysinfo)) := by
  refine ⟨returnsTop_of_fairlyVisited, fairlyVisited_of_prefixes, ?_⟩
  intro fair visited isPrefix
  apply returnsTop_of_fairlyVisited
  intro earlier late sooner
  exact fair earlier late (sooner.trans (isPrefix.filterMap _))

/-- A process known with this usage. -/
def knownProcess (usage : ℚ) : SysinfoProcess Unit := ⟨usage, seenProcess 0 ['a']⟩

/-- A host with the given global usage where processes 7, 8 and 9 use 10, 16 and 24. -/
def threeProcesses (globalCpuUsage : ℚ) : Sysinfo Unit where
  globalCpuUsage := globalCpuUsage
  process pid :=
    if pid = 7 then some (knownProcess 10)
    else if pid = 8 then some (knownProcess 16)
    else if pid = 9 then some (knownProcess 24)
    else none

/-- A tracker with two records of each of these pids. -/
def trackedPids (nbCores : Nat) (pids : List Nat) : ProcessTracker Unit :=
  ⟨pids.map fun pid => [⟨seenProcess pid ['a'], 1⟩, ⟨seenProcess pid ['a'], 0⟩], nbCores, 5⟩

/-- On a single core that is fully used, shares are usages. -/
theorem returnsTop_and_prefixes_iff_single_core :
    ReturnsTop (threeProcesses 100) 2 (trackedPids 1 [7, 8, 9]) := by
  have fair : FairlyVisited (threeProcesses 100) 2
      ((trackedPids 1 [7, 8, 9]).candidates (threeProcesses 100)) := by
    have listed : (trackedPids 1 [7, 8, 9]).candidates (threeProcesses 100) =
        ([] ++ [(seenProcess 7 ['a'], 10)] ++ [(seenProcess 8 ['a'], 16)]) ++
          [(seenProcess 9 ['a'], 24)] := by decide +kernel
    rw [listed, fairlyVisited_concat, fairlyVisited_concat, fairlyVisited_concat]
    refine ⟨⟨⟨?_, ?_⟩, ?_⟩, ?_⟩
    · intro earlier late visited
      exact absurd (List.prefix_nil.mp visited) (by simp)
    all_goals
      unfold NotOutranked
      decide +kernel
  exact (returnsTop_and_prefixes_iff (threeProcesses 100) 2 (trackedPids 1 [7, 8, 9])).1 fair

/-- On two cores process 7 has a share of 5 and process 8 one of 8; process 7 is met first
and turns process 8 away, because its usage of 10 is above 8. -/
theorem not_returnsTop_of_two_cores :
    ¬ ReturnsTop (threeProcesses 100) 1 (trackedPids 2 [7, 8]) := by
  intro isTop
  have result : (trackedPids 2 [7, 8]).getTopConsumers (threeProcesses 100) 1 =
      [(seenProcess 7 ['a'], 5)] := by decide +kernel
  have listed : (trackedPids 2 [7, 8]).candidates (threeProcesses 100) =
      [(seenProcess 7 ['a'], 5)] ++ [(seenProcess 8 ['a'], 8)] := by decide +kernel
  obtain ⟨rest, perm, below⟩ := isTop.leftOut
  rw [result, listed, List.perm_append_left_iff] at perm
  rw [result] at below
  have outranks := below _ List.mem_cons_self _ (perm.mem_iff.mpr List.mem_cons_self)
  exact absurd outranks (by decide +kernel)

end ProcessTracker

end ScaphandreFormal.Sensors
