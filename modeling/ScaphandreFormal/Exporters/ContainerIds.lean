import Mathlib.Data.List.TakeWhile
import ScaphandreFormal.Exporters.RoundTrip

/-!
# Container identifiers in cgroup paths

The docker branch takes the first long alphanumeric run of the path, wherever it stands;
the other branches cut the identifier out of the last component.  The second way is right
for every path.  The first one is right where no long run stands before the identifier, or
where the first of them is the identifier itself.
-/

namespace ScaphandreFormal.Exporters

open Foundation

/-- At least 12 ASCII letters and digits. -/
structure IsContainerId (id : Text) : Prop where
  long : 12 ≤ id.length
  letters : ∀ c ∈ id, c.isAlphanum = true

/-! ## The docker branch -/

/-- What stands between the characters that are no letters or digits. -/
def alnumRuns (text : Text) : List Text := text.splitOnP fun c => !c.isAlphanum

theorem exists_alnumRuns (text : Text) :
    ∃ others, alnumRuns text = text.takeWhile Char.isAlphanum :: others := by
  induction text with
  | nil => exact ⟨[], rfl⟩
  | cons c rest ih =>
      obtain ⟨others, runs⟩ := ih
      unfold alnumRuns at runs ⊢
      rw [List.splitOnP_cons_eq_if_modifyHead, List.takeWhile_cons, runs]
      cases c.isAlphanum with
      | true => exact ⟨others, rfl⟩
      | false => exact ⟨_, rfl⟩

/-- The match is the first of the runs that is long enough. -/
theorem regexCleanContainerId_eq_find (text : Text) :
    regexCleanContainerId text = (alnumRuns text).find? fun run => 12 ≤ run.length := by
  induction text with
  | nil => rfl
  | cons c rest ih =>
      obtain ⟨others, runs⟩ := exists_alnumRuns rest
      have whole : alnumRuns (c :: rest) = if c.isAlphanum then
          (c :: rest.takeWhile Char.isAlphanum) :: others
          else [] :: rest.takeWhile Char.isAlphanum :: others := by
        unfold alnumRuns at runs ⊢
        rw [List.splitOnP_cons_eq_if_modifyHead, runs]
        cases c.isAlphanum <;> rfl
      rw [regexCleanContainerId, ih, runs, whole, List.takeWhile_cons]
      cases c.isAlphanum with
      | true =>
          by_cases enough : 12 ≤ (c :: rest.takeWhile Char.isAlphanum).length
          · rw [if_pos rfl, if_pos enough, if_pos rfl,
              List.find?_cons_of_pos (by simpa using enough)]
          · -- The run is shorter still without its first letter.
            have shorter : ¬ 12 ≤ (rest.takeWhile Char.isAlphanum).length := fun more =>
              enough (Nat.le_succ_of_le more)
            rw [if_pos rfl, if_neg enough, if_pos rfl,
              List.find?_cons_of_neg (by simpa using shorter),
              List.find?_cons_of_neg (by simpa using enough)]
      | false => rfl

theorem regexCleanContainerId_append {c : Char} (separates : c.isAlphanum = false)
    (before after : Text) :
    regexCleanContainerId (before ++ c :: after) =
      (regexCleanContainerId before).or (regexCleanContainerId after) := by
  simp only [regexCleanContainerId_eq_find, alnumRuns]
  rw [List.splitOnP_append_cons _ _ (by rw [separates]; rfl), List.find?_append]

theorem IsContainerId.regexCleanContainerId {id : Text} (isId : IsContainerId id) :
    Exporters.regexCleanContainerId id = some id := by
  have single : alnumRuns id = [id] :=
    List.splitOnP_eq_singleton fun c member => by rw [isId.letters c member]; rfl
  rw [regexCleanContainerId_eq_find, single,
    List.find?_cons_of_pos (by simpa using isId.long)]

/-- The paths of the docker branch. -/
def dockerPaths (before id : Text) : List Text :=
  [before ++ ("/docker/".toList ++ id), before ++ ("/docker-".toList ++ (id ++ ".scope".toList))]

theorem regexCgroupDocker_dockerPaths {before id path : Text}
    (isPath : path ∈ dockerPaths before id) : regexCgroupDocker path = true := by
  have inside : ∀ tail, "/docker".toList <:+: before ++ ("/docker".toList ++ tail) :=
    fun tail => ⟨before, tail, List.append_assoc _ _ _⟩
  rcases List.mem_pair.mp isPath with rfl | rfl
  · exact decide_eq_true (inside ('/' :: id))
  · exact decide_eq_true (inside ('-' :: (id ++ ".scope".toList)))

/-- What is captured stands before `/docker`, or it is the identifier. -/
theorem regexCleanContainerId_dockerPaths {before id path : Text} (isId : IsContainerId id)
    (isPath : path ∈ dockerPaths before id) :
    regexCleanContainerId path = some ((regexCleanContainerId before).getD id) := by
  have docker : ∀ separator tail, separator.isAlphanum = false →
      regexCleanContainerId tail = some id →
      regexCleanContainerId (before ++ '/' :: ("docker".toList ++ separator :: tail)) =
        some ((regexCleanContainerId before).getD id) := by
    intro separator tail separates captured
    have short : regexCleanContainerId "docker".toList = none := by decide +kernel
    rw [regexCleanContainerId_append rfl, regexCleanContainerId_append separates, short,
      captured]
    cases regexCleanContainerId before <;> rfl
  rcases List.mem_pair.mp isPath with rfl | rfl
  · exact docker '/' id rfl isId.regexCleanContainerId
  · refine docker '-' (id ++ '.' :: "scope".toList) rfl ?_
    rw [regexCleanContainerId_append rfl, isId.regexCleanContainerId]
    rfl

namespace Readings

theorem describeCgroups_append (readings : Readings) {skipped : List Cgroup}
    (passed : ∀ other ∈ skipped, other.decides = false) (rest : List Cgroup) :
    ∃ schedulers, readings.describeCgroups (skipped ++ rest) =
        schedulers ++ readings.describeCgroups rest ∧
      ∀ entry ∈ schedulers, entry.1 = "container_scheduler".toList := by
  induction skipped with
  | nil => exact ⟨[], rfl, List.forall_mem_nil _⟩
  | cons cg skipped ih =>
      obtain ⟨here, others⟩ := List.forall_mem_cons.mp passed
      obtain ⟨schedulers, whole, keys⟩ := ih others
      rw [Cgroup.decides] at here
      rw [List.cons_append, describeCgroups]
      cases docker : regexCgroupDocker cg.pathname with
      | true =>
          rw [docker, if_pos rfl, Option.isSome_eq_false_iff, Option.isNone_iff_eq_none] at here
          rw [if_pos rfl, here, whole]
          exact ⟨("container_scheduler".toList, "docker".toList) :: schedulers, rfl,
            List.forall_mem_cons.mpr ⟨rfl, keys⟩⟩
      | false =>
          rw [docker, if_neg Bool.false_ne_true, Bool.or_eq_false_iff] at here
          rw [if_neg Bool.false_ne_true, here.1, if_neg Bool.false_ne_true, here.2,
            if_neg Bool.false_ne_true]
          exact ⟨schedulers, whole, keys⟩

/-- Nothing else is inserted under the key of the identifier. -/
theorem ne_containerId_of_mem_dockerInsertions (readings : Readings) (containerId : Text) :
    ∀ later ∈ (readings.dockerInsertions containerId).tail,
      later.1 ≠ "container_id".toList := by
  rw [dockerInsertions, List.tail_cons]
  cases readings.containers.find? (·.id = containerId) with
  | none => exact List.forall_mem_nil _
  | some container =>
      have names : "container_names".toList ≠ "container_id".toList := by decide +kernel
      have version : "container_docker_version".toList ≠ "container_id".toList := by
        decide +kernel
      refine List.forall_mem_cons.mpr ⟨names, List.forall_mem_cons.mpr ⟨version, ?_⟩⟩
      intro later member
      obtain ⟨label, _, rfl⟩ := List.mem_map.mp member
      exact Container.labelKey_ne (by decide +kernel)

/-- The label of the docker branch is what is captured. -/
theorem mem_containerDescription_iff (readings : Readings) {process : ProcessReadings}
    {skipped rest : List Cgroup} {cg : Cgroup} {captured value : Text}
    (listed : process.cgroups = skipped ++ cg :: rest)
    (passed : ∀ other ∈ skipped, other.decides = false)
    (docker : regexCgroupDocker cg.pathname = true)
    (found : regexCleanContainerId cg.pathname = some captured) :
    ("container_id".toList, value) ∈ readings.getProcessContainerDescription process ↔
      value = captured := by
  obtain ⟨schedulers, whole, keys⟩ := readings.describeCgroups_append passed (cg :: rest)
  have scheduler : "container_scheduler".toList ≠ "container_id".toList := by decide +kernel
  have before : ∀ entry ∈ schedulers ++ [("container_scheduler".toList, "docker".toList)],
      entry.1 ≠ "container_id".toList := by
    refine List.forall_mem_append.mpr ⟨?_, List.forall_mem_singleton.mpr scheduler⟩
    intro entry member
    rw [keys entry member]
    exact scheduler
  have here : readings.describeCgroups (cg :: rest) =
      [("container_scheduler".toList, "docker".toList)] ++
        ("container_id".toList, captured) :: (readings.dockerInsertions captured).tail := by
    rw [describeCgroups, if_pos docker, found]
    rfl
  rw [getProcessContainerDescription, mem_insertAll, listed, whole, here, ← List.append_assoc]
  exact lasts_only_iff before (readings.ne_containerId_of_mem_dockerInsertions captured)

end Readings

/-! ## The other branches -/

/-- The last components of the paths of the other branches. -/
def podComponents (any id : Text) : List Text :=
  [id, "docker-".toList ++ (id ++ ".scope".toList), any ++ (":cri-containerd:".toList ++ id)]

theorem withoutStart_append (start text : Text) : withoutStart start (start ++ text) = text := by
  rw [withoutStart, if_pos (List.prefix_append _ _), List.drop_left]

theorem withoutEnd_append (ending text : Text) : withoutEnd ending (text ++ ending) = text := by
  rw [withoutEnd, if_pos (List.suffix_append _ _), List.length_append, Nat.add_sub_cancel,
    List.take_left]

theorem getLastD_splitOn {separator : Char} {last : Text} (single : separator ∉ last)
    (start : Text) : ((start ++ separator :: last).splitOn separator).getLastD [] = last := by
  rw [List.splitOn_append_cons_self, List.splitOn_eq_singleton single, List.getLastD_concat]

/-- The start is cut off what stands before the first colon, or nothing is. -/
theorem withoutStart_before_colon {start : Text} (noColon : ':' ∉ start) (any rest : Text) :
    ∃ left, withoutStart start (any ++ ':' :: rest) = left ++ ':' :: rest := by
  unfold withoutStart
  split
  case isTrue isPrefix =>
    obtain ⟨tail, whole⟩ := isPrefix
    rcases List.append_eq_append_iff.mp whole with ⟨left, rfl, _⟩ | ⟨more, rfl, split⟩
    · refine ⟨left, ?_⟩
      rw [List.append_assoc, List.drop_left]
    · cases more with
      | nil =>
          refine ⟨[], ?_⟩
          rw [List.append_nil, List.drop_left]
          rfl
      | cons c letters =>
          have colon : ':' = c := (List.cons.inj split).1
          exact absurd (List.mem_append_right any (colon ▸ List.mem_cons_self)) noColon
  case isFalse => exact ⟨any, rfl⟩

namespace IsContainerId

variable {id : Text} (isId : IsContainerId id)

include isId

theorem not_mem {c : Char} (other : c.isAlphanum = false) : c ∉ id := by
  intro member
  rw [isId.letters c member] at other
  cases other

/-- An identifier is longer than `.scope`, which would have to be its end. -/
theorem not_scope_suffix (text : Text) : ¬ ".scope".toList <:+ text ++ id := by
  intro isSuffix
  have short : ".scope".toList.length ≤ id.length := Nat.le_trans (by decide) isId.long
  have within : ".scope".toList <:+ id :=
    List.suffix_of_suffix_length_le isSuffix (List.suffix_append _ _) short
  exact isId.not_mem rfl (within.subset (by decide : '.' ∈ ".scope".toList))

/-- Once the start and the end are cut off, the identifier is left, or it stands after the
last colon. -/
theorem cleaned {any last : Text} (isLast : last ∈ podComponents any id) :
    withoutEnd ".scope".toList (withoutStart "docker-".toList last) = id ∨
      ∃ left, withoutEnd ".scope".toList (withoutStart "docker-".toList last) =
        left ++ (":cri-containerd:".toList ++ id) := by
  rcases List.mem_cons.mp isLast with rfl | isLast
  · have noStart : ¬ "docker-".toList <+: last := fun isPrefix =>
      isId.not_mem rfl (isPrefix.subset (by decide : '-' ∈ "docker-".toList))
    have noEnd : ¬ ".scope".toList <:+ last := isId.not_scope_suffix []
    refine Or.inl ?_
    rw [withoutStart, if_neg noStart, withoutEnd, if_neg noEnd]
  · rcases List.mem_pair.mp isLast with rfl | rfl
    · refine Or.inl ?_
      rw [withoutStart_append, withoutEnd_append]
    · have noColon : ':' ∉ "docker-".toList := by decide
      obtain ⟨left, cut⟩ :=
        withoutStart_before_colon noColon any ("cri-containerd:".toList ++ id)
      have noEnd := isId.not_scope_suffix (left ++ ":cri-containerd:".toList)
      rw [List.append_assoc] at noEnd
      refine Or.inr ⟨left, ?_⟩
      calc withoutEnd ".scope".toList (withoutStart "docker-".toList
            (any ++ (":cri-containerd:".toList ++ id)))
          = withoutEnd ".scope".toList (left ++ (":cri-containerd:".toList ++ id)) :=
            congrArg _ cut
        _ = left ++ (":cri-containerd:".toList ++ id) := if_neg noEnd

theorem not_mem_slash {any last : Text} (single : '/' ∉ any)
    (isLast : last ∈ podComponents any id) : '/' ∉ last := by
  have noSlash : '/' ∉ id := isId.not_mem rfl
  rcases List.mem_cons.mp isLast with rfl | isLast
  · exact noSlash
  · rcases List.mem_pair.mp isLast with rfl | rfl
    · rw [List.mem_append, List.mem_append, not_or, not_or]
      exact ⟨by decide, noSlash, by decide⟩
    · rw [List.mem_append, List.mem_append, not_or, not_or]
      exact ⟨single, by decide, noSlash⟩

theorem extractPodId {any last : Text} (start : Text) (single : '/' ∉ any)
    (isLast : last ∈ podComponents any id) :
    extractPodIdFromCgroupPath (start ++ '/' :: last) = id := by
  unfold extractPodIdFromCgroupPath
  rw [getLastD_splitOn (isId.not_mem_slash single isLast)]
  rcases isId.cleaned isLast with whole | ⟨left, whole⟩
  · have noRuntime : ¬ "cri-containerd".toList <:+: id := fun isInfix =>
      isId.not_mem rfl (isInfix.subset (by decide : '-' ∈ "cri-containerd".toList))
    simp only [whole]
    rw [if_neg noRuntime]
  · have runtime : "cri-containerd".toList <:+: left ++ (":cri-containerd:".toList ++ id) :=
      ⟨left ++ [':'], ':' :: id, by rw [List.append_assoc, List.append_assoc]; rfl⟩
    have noColon : ':' ∉ id := isId.not_mem rfl
    have lastPiece := getLastD_splitOn noColon (left ++ ":cri-containerd".toList)
    rw [List.append_assoc] at lastPiece
    simp only [whole]
    rw [if_pos runtime]
    exact lastPiece

end IsContainerId

/-- The docker branch gives the identifier just where the first long run before `/docker`,
if there is one, is the identifier; the other branches always do. -/
theorem container_ids_extracted_iff_first_run (id : Text) (isId : IsContainerId id) :
    (∀ (readings : Readings) (process : ProcessReadings) (skipped rest : List Cgroup)
        (cg : Cgroup) (before : Text),
      process.cgroups = skipped ++ cg :: rest → (∀ other ∈ skipped, other.decides = false) →
      cg.pathname ∈ dockerPaths before id →
      ((∀ value, ("container_id".toList, value) ∈
          readings.getProcessContainerDescription process ↔ value = id) ↔
        ∀ run ∈ (alnumRuns before).find? fun run => 12 ≤ run.length, run = id)) ∧
    ∀ (start any last : Text), '/' ∉ any → last ∈ podComponents any id →
      extractPodIdFromCgroupPath (start ++ '/' :: last) = id := by
  refine ⟨?_, fun start any last single isLast => isId.extractPodId start single isLast⟩
  intro readings process skipped rest cg before listed passed isPath
  have labels : ∀ value, ("container_id".toList, value) ∈
      readings.getProcessContainerDescription process ↔
        value = (regexCleanContainerId before).getD id := fun value =>
    readings.mem_containerDescription_iff listed passed
      (regexCgroupDocker_dockerPaths isPath) (regexCleanContainerId_dockerPaths isId isPath)
  rw [← regexCleanContainerId_eq_find]
  constructor
  · intro label run isRun
    have same := (labels id).mp ((label id).mpr rfl)
    rw [same, isRun]
    rfl
  · intro first value
    have same : (regexCleanContainerId before).getD id = id := by
      cases captured : regexCleanContainerId before with
      | none => rfl
      | some run => exact first run captured
    rw [labels value, same]

/-- A process of a container, in the cgroup of the path. -/
def containerProcess (cg : Cgroup) : ProcessReadings where
  pid := 7
  exe := "sh".toList
  cmdline := none
  cgroups := [cg]
  usage := none
  power := none
  coreTimes := none

/-- A container that docker runs by itself. -/
def plainCgroup : Cgroup := ⟨"/system.slice/docker-0123456789ab.scope".toList, by decide +kernel⟩

/-- A container that docker runs for a pod, whose identifier ends with 12 digits. -/
def podCgroup : Cgroup :=
  ⟨"/kubepods.slice/kubepods-pod1b2c_9abc_def012345678.slice/docker-0123456789ab.scope".toList,
    by decide +kernel⟩

theorem container_id_extracted_of_plain_cgroup :
    (∀ value, ("container_id".toList, value) ∈
        (TextExporter.oneProcess "sh".toList).getProcessContainerDescription
          (containerProcess plainCgroup) ↔ value = "0123456789ab".toList) ∧
      extractPodIdFromCgroupPath "/kubepods/pod1/docker-0123456789ab.scope".toList =
        "0123456789ab".toList := by
  have isId : IsContainerId "0123456789ab".toList :=
    ⟨by decide +kernel, List.all_eq_true.mp (by decide +kernel)⟩
  obtain ⟨docker, others⟩ := container_ids_extracted_iff_first_run _ isId
  have cgroups := docker (TextExporter.oneProcess "sh".toList) (containerProcess plainCgroup)
    [] [] plainCgroup "/system.slice".toList rfl (List.forall_mem_nil _) (by decide +kernel)
  have noRun : (alnumRuns "/system.slice".toList).find? (fun run => 12 ≤ run.length) = none := by
    decide +kernel
  refine ⟨cgroups.mpr ?_, ?_⟩
  · rw [noRun]
    simp
  · exact others "/kubepods/pod1".toList [] "docker-0123456789ab.scope".toList (by decide)
      (by decide +kernel)

/-- The end of the identifier of the pod is taken for the container. -/
theorem not_container_id_extracted_of_pod_cgroup :
    ¬ ∀ (id : Text), IsContainerId id → ∀ (readings : Readings) (process : ProcessReadings)
        (skipped rest : List Cgroup) (cg : Cgroup) (before : Text),
      process.cgroups = skipped ++ cg :: rest → (∀ other ∈ skipped, other.decides = false) →
      cg.pathname ∈ dockerPaths before id →
      ∀ value, ("container_id".toList, value) ∈
        readings.getProcessContainerDescription process ↔ value = id := by
  intro all
  have isId : IsContainerId "0123456789ab".toList :=
    ⟨by decide +kernel, List.all_eq_true.mp (by decide +kernel)⟩
  have label := all _ isId (TextExporter.oneProcess "sh".toList) (containerProcess podCgroup) [] []
    podCgroup "/kubepods.slice/kubepods-pod1b2c_9abc_def012345678.slice".toList rfl
    (List.forall_mem_nil _) (by decide +kernel) "def012345678".toList
  exact absurd (label.mp (by decide +kernel)) (by decide +kernel)

end ScaphandreFormal.Exporters
