import ScaphandreFormal.Sensors.DiscoveryPasses

/-!
# What the discovery returns

The second pass, the search for psys and the distribution of the cores, and from
them when `generate_topology` returns and what it returns.
-/

namespace ScaphandreFormal.Sensors.Powercap

open Foundation

namespace Directory

variable {directory : Directory} {topo : FoundTopology}

/-! ## The second pass -/

/-- The folder is one that the second pass makes a socket from. -/
def isEligible (directory : Directory) (folder : Folder) : Bool :=
  match folder.name with
  | some domainName =>
      decide (domainName ≠ "psys".toList) && isSocketFolder (directory.path folder)
  | none => false

theorem addSocketFolder_of_eligible {folder : Folder}
    (eligible : directory.isEligible folder = true) (topo : FoundTopology) :
    directory.addSocketFolder topo folder =
      (pieceOf (directory.path folder) 1).map fun socketId =>
        topo.safeAddSocket (directory.newSocket socketId) := by
  unfold isEligible at eligible
  unfold addSocketFolder
  cases named : folder.name with
  | none =>
      rw [named] at eligible
      cases eligible
  | some domainName =>
      rw [named] at eligible
      simp only [Bool.and_eq_true, decide_eq_true_eq] at eligible
      simp only [if_pos eligible]
      cases pieceOf (directory.path folder) 1 with
      | error panic => rfl
      | ok socketId => rfl

theorem addSocketFolder_of_not_eligible {folder : Folder}
    (ineligible : directory.isEligible folder = false) (topo : FoundTopology) :
    directory.addSocketFolder topo folder = .ok topo := by
  unfold isEligible at ineligible
  unfold addSocketFolder
  cases named : folder.name with
  | none => rfl
  | some domainName =>
      rw [named] at ineligible
      simp only [Bool.and_eq_false_iff, decide_eq_false_iff_not] at ineligible
      simp only
      rw [if_neg]
      rintro ⟨other, isSocket⟩
      rcases ineligible with psys | notSocket
      · exact psys other
      · rw [isSocket] at notSocket
        cases notSocket

/-- The folder leads the second pass to this socket. -/
def LeadsTo (directory : Directory) (socketId : Nat) (folder : Folder) : Prop :=
  directory.isEligible folder = true ∧ pieceOf (directory.path folder) 1 = .ok socketId

/-- What the folders that the second pass met have led to. -/
structure Fallback (directory : Directory) (met : List Folder) (topo : FoundTopology) : Prop where
  distinct : topo.socketIds.Nodup
  known : ∀ id, id ∈ topo.socketIds ↔ ∃ folder ∈ met, directory.LeadsTo id folder
  data : ∀ s ∈ topo.sockets, s = directory.newSocket s.id
  unnamed : topo.domainsNames = none
  noPsys : topo.psys = none

theorem fallback_new : directory.Fallback [] .new where
  distinct := List.nodup_nil
  known := by simp [FoundTopology.new, FoundTopology.socketIds]
  data := fun _ member => absurd member List.not_mem_nil
  unnamed := rfl
  noPsys := rfl

theorem Fallback.skip {met : List Folder} (fallback : directory.Fallback met topo)
    {folder : Folder} (foreign : ∀ id, ¬ directory.LeadsTo id folder) :
    directory.Fallback (met ++ [folder]) topo := by
  refine ⟨fallback.distinct, ?_, fallback.data, fallback.unnamed, fallback.noPsys⟩
  intro id
  rw [exists_mem_concat, or_iff_left (foreign id)]
  exact fallback.known id

theorem Fallback.addSocket {met : List Folder} (fallback : directory.Fallback met topo)
    {folder : Folder} {socketId : Nat} (leads : directory.LeadsTo socketId folder) :
    directory.Fallback (met ++ [folder])
      (topo.safeAddSocket (directory.newSocket socketId)) := by
  have only : ∀ id, directory.LeadsTo id folder ↔ id = socketId := by
    intro id
    constructor
    · rintro ⟨_, read⟩
      rw [leads.2] at read
      cases read
      rfl
    · rintro rfl
      exact leads
  have kept : (topo.safeAddSocket (directory.newSocket socketId)).domainsNames =
        topo.domainsNames ∧
      (topo.safeAddSocket (directory.newSocket socketId)).psys = topo.psys := by
    unfold FoundTopology.safeAddSocket
    split <;> exact ⟨rfl, rfl⟩
  refine ⟨FoundTopology.nodup_socketIds_safeAddSocket fallback.distinct _, ?_, ?_,
    kept.1.trans fallback.unnamed, kept.2.trans fallback.noPsys⟩
  · intro id
    rw [FoundTopology.mem_socketIds_safeAddSocket, exists_mem_concat, fallback.known id, only id]
    rfl
  · intro s isSocket
    rcases FoundTopology.mem_sockets_safeAddSocket.mp isSocket with old | ⟨rfl, _⟩
    · exact fallback.data s old
    · rfl

/-- The second pass returns when every eligible folder has a socket id in its path. -/
theorem foldlM_addSocketFolder {folders : List Folder}
    (readable : ∀ folder ∈ folders, directory.isEligible folder = true →
      ∃ socketId, pieceOf (directory.path folder) 1 = .ok socketId) :
    ∃ result, folders.foldlM directory.addSocketFolder .new = .ok result ∧
      directory.Fallback folders result := by
  have general : ∀ (rest met : List Folder) (topo : FoundTopology),
      (∀ folder ∈ rest, directory.isEligible folder = true →
        ∃ socketId, pieceOf (directory.path folder) 1 = .ok socketId) →
      directory.Fallback met topo →
        ∃ result, rest.foldlM directory.addSocketFolder topo = .ok result ∧
          directory.Fallback (met ++ rest) result := by
    intro rest
    induction rest with
    | nil =>
        intro met topo _ fallback
        rw [List.append_nil]
        exact ⟨topo, rfl, fallback⟩
    | cons folder rest ih =>
        intro met topo readableRest fallback
        obtain ⟨here, later⟩ := List.forall_mem_cons.mp readableRest
        have joined : met ++ folder :: rest = met ++ [folder] ++ rest := by simp
        rw [joined, List.foldlM_cons]
        cases eligible : directory.isEligible folder with
        | false =>
            rw [addSocketFolder_of_not_eligible eligible]
            refine ih (met ++ [folder]) topo later (fallback.skip ?_)
            rintro id ⟨isEligible, _⟩
            rw [eligible] at isEligible
            cases isEligible
        | true =>
            obtain ⟨socketId, read⟩ := here eligible
            rw [addSocketFolder_of_eligible eligible, read]
            exact ih (met ++ [folder]) _ later (fallback.addSocket ⟨eligible, read⟩)
  exact general folders [] .new readable fallback_new

/-- An eligible folder without a socket id in its path ends the second pass. -/
theorem foldlM_addSocketFolder_error {folders : List Folder} {folder : Folder}
    (member : folder ∈ folders) (eligible : directory.isEligible folder = true)
    {panic : DiscoveryPanic} (unread : pieceOf (directory.path folder) 1 = .error panic)
    (topo result : FoundTopology) :
    folders.foldlM directory.addSocketFolder topo ≠ .ok result := by
  intro succeeds
  obtain ⟨before, after, rfl⟩ := List.append_of_mem member
  obtain ⟨middle, _, later⟩ := foldlM_append_eq_ok succeeds
  obtain ⟨next, here, _⟩ := foldlM_cons_eq_ok later
  rw [addSocketFolder_of_eligible eligible, unread] at here
  cases here

/-! ## The search for psys -/

/-- The third pass takes the folder for psys. -/
def isPsys (folder : Folder) : Bool :=
  match folder.name with
  | some domainName => decide (trim domainName = "psys".toList)
  | none => false

theorem findPsys_eq (topo : FoundTopology) (folder : Folder) :
    directory.findPsys topo folder =
      if isPsys folder then { topo with psys := some (directory.path folder) } else topo := by
  unfold findPsys isPsys
  cases folder.name with
  | none => rfl
  | some domainName => simp only [decide_eq_true_eq]

/-- The last folder with this name stays. -/
theorem foldl_findPsys (folders : List Folder) (topo : FoundTopology) :
    folders.foldl directory.findPsys topo =
      { topo with psys :=
        ((folders.reverse.find? isPsys).map directory.path).or topo.psys } := by
  induction folders generalizing topo with
  | nil => rfl
  | cons folder rest ih =>
      rw [List.foldl_cons, ih, findPsys_eq, List.reverse_cons, List.find?_append]
      cases named : isPsys folder with
      | false => simp [named]
      | true => cases rest.reverse.find? isPsys <;> simp [named]

end Directory

/-! ## The cores -/

namespace FoundTopology

def withoutCores (s : FoundSocket) : FoundSocket := { s with cpuCores := [] }

/-- The topologies differ in nothing but the cores. -/
structure SameButCores (topo next : FoundTopology) : Prop where
  sockets : next.sockets.map withoutCores = topo.sockets.map withoutCores
  domainsNames : next.domainsNames = topo.domainsNames
  psys : next.psys = topo.psys

variable {topo next : FoundTopology}

theorem SameButCores.sockets_ne_nil (same : SameButCores topo next) (some : topo.sockets ≠ []) :
    next.sockets ≠ [] := by
  intro none
  have empty := same.sockets
  rw [none] at empty
  exact some (List.map_eq_nil_iff.mp empty.symm)

theorem map_modify_withoutCores {push : FoundSocket → FoundSocket}
    (kept : ∀ s, withoutCores (push s) = withoutCores s) (sockets : List FoundSocket)
    (index : Nat) : (sockets.modify index push).map withoutCores = sockets.map withoutCores := by
  induction sockets generalizing index with
  | nil => rw [List.modify_nil]
  | cons s rest ih =>
      cases index with
      | zero => rw [List.modify_zero_cons, List.map_cons, List.map_cons, kept]
      | succ index => rw [List.modify_succ_cons, List.map_cons, List.map_cons, ih]

theorem addCpuCore_ok (some : topo.sockets ≠ []) (core : Nat × Nat) :
    ∃ next, topo.addCpuCore core = .ok next ∧ SameButCores topo next := by
  unfold addCpuCore
  cases listed : topo.sockets with
  | nil => exact absurd listed some
  | cons first rest =>
      simp only
      split
      · refine ⟨_, rfl, ?_, rfl, rfl⟩
        rw [listed]
        apply map_modify_withoutCores
        exact fun _ => rfl
      · refine ⟨_, rfl, ?_, rfl, rfl⟩
        rw [listed]
        rfl

theorem SameButCores.trans {last : FoundTopology} (first : SameButCores topo next)
    (second : SameButCores next last) : SameButCores topo last :=
  ⟨second.sockets.trans first.sockets, second.domainsNames.trans first.domainsNames,
    second.psys.trans first.psys⟩

/-- The cores find their place when there is a socket. -/
theorem addCpuCores_ok {cores : List (Nat × Nat)} (room : cores = [] ∨ topo.sockets ≠ []) :
    ∃ next, topo.addCpuCores cores = .ok next ∧ SameButCores topo next := by
  rcases room with rfl | some
  · exact ⟨topo, rfl, rfl, rfl, rfl⟩
  · refine foldlM_ok (SameButCores topo) ?_ ⟨rfl, rfl, rfl⟩
    intro state core _ same
    obtain ⟨next, pushed, sameNext⟩ := addCpuCore_ok (same.sockets_ne_nil some) core
    exact ⟨next, pushed, same.trans sameNext⟩

/-- Without a socket the first core ends the discovery. -/
theorem addCpuCores_error {cores : List (Nat × Nat)} (some : cores ≠ [])
    (none : topo.sockets = []) (next : FoundTopology) : topo.addCpuCores cores ≠ .ok next := by
  intro succeeds
  obtain ⟨core, rest, listed⟩ := List.exists_cons_of_ne_nil (List.reverse_ne_nil_iff.mpr some)
  rw [addCpuCores, listed] at succeeds
  obtain ⟨_, pushed, _⟩ := foldlM_cons_eq_ok succeeds
  rw [addCpuCore, none] at pushed
  cases pushed

end FoundTopology

/-! ## The first pass -/

namespace Directory

variable {directory : Directory} {topo : FoundTopology}

/-- When it comes after the folder `before`, the folder `folder` finds nothing of it to give an
mmio path to. -/
structure Undisturbed (directory : Directory) (before folder : Folder) : Prop where
  socket : ∀ socketId, directory.action folder = .ok (.socketMmio socketId) →
    ¬ directory.BelongsTo socketId before
  domain : ∀ socketId, directory.action folder = .ok (.domainMmio socketId) →
    ∀ domainId resource, directory.AsksFor socketId domainId resource before →
      ∃ nameInFolder, folder.name = some nameInFolder ∧ trim nameInFolder ≠ resource.text

theorem not_belongsTo {folder : Folder} (other : isDomainFolder (directory.path folder) = false)
    (socketId : Nat) : ¬ directory.BelongsTo socketId folder := by
  rintro ⟨domainId, resource, read⟩
  rw [directory.isDomainFolder_of_action read] at other
  cases other

/-- What comes before the domain folders disturbs nothing. -/
theorem undisturbed_of_not_domain {before : Folder}
    (other : isDomainFolder (directory.path before) = false) (folder : Folder) :
    directory.Undisturbed before folder := by
  refine ⟨fun socketId _ => not_belongsTo other socketId, ?_⟩
  intro socketId _ domainId resource asks
  exact absurd ⟨domainId, some resource, asks⟩ (not_belongsTo other socketId)

theorem trim_text (resource : DomainResource) : trim resource.text = resource.text := by
  cases resource <;> decide

theorem markSocket_eq_self {socketId : Nat} (absent : socketId ∉ topo.socketIds) :
    directory.markSocket topo socketId = topo := by
  have kept : ∀ s ∈ topo.sockets, socketId ≠ s.id := by
    rintro s isSocket rfl
    exact absent (List.mem_map_of_mem isSocket)
  unfold markSocket
  simp only
  rw [List.map_congr_left fun s isSocket => if_neg (kept s isSocket), List.map_id']

theorem attachToDomain_eq_self {folder : Folder} {domain : FoundDomain} {nameInFolder : Text}
    (named : folder.name = some nameInFolder) (other : trim nameInFolder ≠ trim domain.name) :
    directory.attachToDomain folder domain = .ok domain := by
  unfold attachToDomain
  simp only [named]
  rw [if_neg other.symm]

theorem markDomains_eq_self {folder : Folder} {socketId : Nat}
    (others : ∀ s ∈ topo.sockets, s.id = socketId → ∀ d ∈ s.domains,
      directory.attachToDomain folder d = .ok d) :
    directory.markDomains folder topo socketId = .ok topo := by
  have each : ∀ s ∈ topo.sockets, directory.markDomainsOf folder socketId s = .ok (id s) := by
    intro s isSocket
    unfold markDomainsOf
    split
    · rename_i here
      have mapped : s.domains.mapM (directory.attachToDomain folder) = .ok (s.domains.map id) :=
        mapM_eq_ok (others s isSocket here.symm)
      rw [mapped, List.map_id]
      rfl
    · rfl
  unfold markDomains
  rw [mapM_eq_ok each, List.map_id]
  rfl

/-- After folders that it is undisturbed by, a folder leaves what it leaves without mmio paths. -/
theorem addFolder_of_undisturbed {met : List Folder} (described : directory.Described met topo)
    {folder : Folder} {action : FolderAction} (read : directory.action folder = .ok action)
    (undisturbed : ∀ before ∈ met, directory.Undisturbed before folder) :
    directory.addFolder topo folder = .ok (directory.addBare topo folder) := by
  rw [directory.addFolder_of_action read]
  unfold addBare
  rw [read]
  cases action with
  | domain socketId domainId resource => rfl
  | nothing => rfl
  | socketMmio socketId =>
      have absent : socketId ∉ topo.socketIds := by
        intro known
        obtain ⟨before, isMet, belongs⟩ := (described.known socketId).mp known
        exact (undisturbed before isMet).socket socketId read belongs
      exact congrArg Except.ok (markSocket_eq_self absent)
  | domainMmio socketId =>
      refine markDomains_eq_self ?_
      rintro s isSocket rfl d isDomain
      obtain ⟨before, isMet, resource, asks, made⟩ := described.origin s isSocket d isDomain
      obtain ⟨nameInFolder, named, other⟩ :=
        (undisturbed before isMet).domain s.id read d.id resource asks
      refine attachToDomain_eq_self named ?_
      rw [made]
      exact fun same => other (same.trans (trim_text resource))

/-- A pass over folders that are undisturbed by the earlier ones gives no mmio path. -/
theorem foldlM_addFolder_of_undisturbed {folders : List Folder}
    (readable : ∀ folder ∈ folders, ∃ action, directory.action folder = .ok action)
    (undisturbed : folders.Pairwise directory.Undisturbed) :
    folders.foldlM directory.addFolder .new = .ok (folders.foldl directory.addBare .new) := by
  have general : ∀ (rest met : List Folder) (topo : FoundTopology),
      (∀ folder ∈ rest, ∃ action, directory.action folder = .ok action) →
      rest.Pairwise directory.Undisturbed →
      (∀ before ∈ met, ∀ folder ∈ rest, directory.Undisturbed before folder) →
      directory.Described met topo →
        rest.foldlM directory.addFolder topo = .ok (rest.foldl directory.addBare topo) := by
    intro rest
    induction rest with
    | nil => exact fun _ _ _ _ _ _ => rfl
    | cons folder rest ih =>
        intro met topo readableRest apart fromMet described
        obtain ⟨⟨action, read⟩, later⟩ := List.forall_mem_cons.mp readableRest
        obtain ⟨fromFolder, apartRest⟩ := List.pairwise_cons.mp apart
        have here := addFolder_of_undisturbed described read
          fun before isMet => fromMet before isMet folder List.mem_cons_self
        rw [List.foldlM_cons, here]
        refine ih (met ++ [folder]) _ later apartRest ?_ (described.addBare folder)
        intro before isMet other isOther
        rcases List.mem_append.mp isMet with old | new
        · exact fromMet before old other (List.mem_cons_of_mem _ isOther)
        · rw [List.mem_singleton.mp new]
          exact fromFolder other isOther
  refine general folders [] .new readable undisturbed ?_ described_new
  exact fun before none => absurd none List.not_mem_nil

/-- A folder that cannot be read ends the first pass. -/
theorem foldlM_addFolder_error {folders : List Folder} {folder : Folder}
    (member : folder ∈ folders) (unread : ∀ action, directory.action folder ≠ .ok action)
    (topo result : FoundTopology) : folders.foldlM directory.addFolder topo ≠ .ok result := by
  intro succeeds
  obtain ⟨before, after, rfl⟩ := List.append_of_mem member
  obtain ⟨middle, _, later⟩ := foldlM_append_eq_ok succeeds
  obtain ⟨next, here, _⟩ := foldlM_cons_eq_ok later
  obtain ⟨action, read, _⟩ := directory.addFolder_eq_ok here
  exact unread action read

theorem addBare_of_not_domain {folder : Folder}
    (other : isDomainFolder (directory.path folder) = false) (topo : FoundTopology) :
    directory.addBare topo folder = topo := by
  unfold addBare
  split
  · rename_i read
    rw [directory.isDomainFolder_of_action read] at other
    cases other
  · rfl

theorem foldl_addBare_of_not_domain {folders : List Folder}
    (others : ∀ folder ∈ folders, isDomainFolder (directory.path folder) = false)
    (topo : FoundTopology) : folders.foldl directory.addBare topo = topo := by
  induction folders with
  | nil => rfl
  | cons folder rest ih =>
      obtain ⟨here, later⟩ := List.forall_mem_cons.mp others
      rw [List.foldl_cons, addBare_of_not_domain here, ih later]

/-! ## The whole discovery -/

/-- What the first two passes return. -/
def scan (directory : Directory) (listing : Listing directory) :
    Except DiscoveryPanic FoundTopology := do
  let topo ← listing.first.foldlM directory.addFolder .new
  if directory.domainMatched listing.first then pure topo
  else listing.second.foldlM directory.addSocketFolder topo

theorem generateTopology_eq (listing : Listing directory) (cores : List (Nat × Nat)) :
    directory.generateTopology listing cores =
      if directory.basePath = [] then .error .readDir
      else (directory.scan listing).bind fun topo =>
        (listing.third.foldl directory.findPsys topo).addCpuCores cores := by
  unfold generateTopology scan
  by_cases empty : directory.basePath = []
  · simp only [empty, if_true]
    rfl
  · simp only [empty, if_false]
    cases listing.first.foldlM directory.addFolder .new with
    | error panic => rfl
    | ok topo => cases directory.domainMatched listing.first <;> rfl

/-- What the search for psys makes of the topology. -/
def withPsys (directory : Directory) (listing : Listing directory) (topo : FoundTopology) :
    FoundTopology :=
  { topo with psys :=
    ((listing.third.reverse.find? isPsys).map directory.path).or topo.psys }

theorem generateTopology_ok {listing : Listing directory} (based : directory.basePath ≠ [])
    (scanned : directory.scan listing = .ok topo) {cores : List (Nat × Nat)}
    (room : cores = [] ∨ topo.sockets ≠ []) :
    ∃ result, directory.generateTopology listing cores = .ok result ∧
      FoundTopology.SameButCores (directory.withPsys listing topo) result := by
  rw [generateTopology_eq, if_neg based, scanned]
  change ∃ result, (listing.third.foldl directory.findPsys topo).addCpuCores cores = .ok result ∧ _
  rw [foldl_findPsys]
  exact FoundTopology.addCpuCores_ok room

theorem generateTopology_eq_ok {listing : Listing directory} {cores : List (Nat × Nat)}
    {result : FoundTopology} (generated : directory.generateTopology listing cores = .ok result) :
    directory.basePath ≠ [] ∧ ∃ topo, directory.scan listing = .ok topo ∧
      (cores = [] ∨ topo.sockets ≠ []) ∧
      FoundTopology.SameButCores (directory.withPsys listing topo) result := by
  rw [generateTopology_eq] at generated
  split at generated
  · cases generated
  rename_i based
  obtain ⟨topo, scanned, added⟩ := bind_eq_ok generated
  rw [foldl_findPsys] at added
  have room : cores = [] ∨ topo.sockets ≠ [] := by
    by_contra neither
    rw [not_or, not_not] at neither
    have none : (directory.withPsys listing topo).sockets = [] := neither.2
    exact FoundTopology.addCpuCores_error neither.1 none result added
  obtain ⟨next, pushed, same⟩ := FoundTopology.addCpuCores_ok
    (show cores = [] ∨ (directory.withPsys listing topo).sockets ≠ [] from room)
  rw [withPsys, added] at pushed
  cases pushed
  exact ⟨based, topo, scanned, room, same⟩

theorem domainMatched_perm {first second : List Folder} (perm : first.Perm second) :
    directory.domainMatched first = directory.domainMatched second := by
  rw [Bool.eq_iff_iff]
  unfold domainMatched
  simp only [List.any_eq_true, perm.mem_iff]

theorem isDomainFolder_of_unmatched {folders : List Folder}
    (unmatched : directory.domainMatched folders = false) :
    ∀ folder ∈ folders, isDomainFolder (directory.path folder) = false := by
  intro folder member
  exact Bool.eq_false_iff.mpr (List.any_eq_false.mp unmatched folder member)

theorem scan_of_matched (listing : Listing directory)
    (matched : directory.domainMatched directory.folders = true) :
    directory.scan listing = listing.first.foldlM directory.addFolder .new := by
  unfold scan
  rw [domainMatched_perm listing.firstPerm, matched]
  cases listing.first.foldlM directory.addFolder .new with
  | error panic => rfl
  | ok topo => rfl

/-- Without a domain folder the first pass finds nothing. -/
theorem scan_of_unmatched (listing : Listing directory)
    (unmatched : directory.domainMatched directory.folders = false)
    (readable : ∀ folder ∈ directory.folders, ∃ action, directory.action folder = .ok action) :
    directory.scan listing = listing.second.foldlM directory.addSocketFolder .new := by
  have others :=
    isDomainFolder_of_unmatched ((domainMatched_perm listing.firstPerm).trans unmatched)
  have undisturbed : listing.first.Pairwise directory.Undisturbed := by
    apply List.pairwise_of_forall_mem_list
    intro before isBefore folder _
    exact undisturbed_of_not_domain (others before isBefore) folder
  have passed := foldlM_addFolder_of_undisturbed
    (fun folder member => readable folder (listing.firstPerm.mem_iff.mp member)) undisturbed
  rw [foldl_addBare_of_not_domain others] at passed
  unfold scan
  rw [passed, domainMatched_perm listing.firstPerm, unmatched]
  rfl

/-! ## When the discovery returns -/

/-- No panic is certain: the base path is there, every number cut from a path can be read, the
domains are supported and the cores have a socket to go to. -/
structure Buildable (directory : Directory) (cores : List (Nat × Nat)) : Prop where
  based : directory.basePath ≠ []
  readable : ∀ folder ∈ directory.folders, ∃ action, directory.action folder = .ok action
  leading : directory.domainMatched directory.folders = false →
    ∀ folder ∈ directory.folders, directory.isEligible folder = true →
      ∃ socketId, pieceOf (directory.path folder) 1 = .ok socketId
  room : cores = [] ∨ directory.domainMatched directory.folders = true ∨
    ∃ folder ∈ directory.folders, directory.isEligible folder = true

theorem sockets_ne_nil_of_known {id : Nat} (known : id ∈ topo.socketIds) : topo.sockets ≠ [] := by
  intro none
  rw [FoundTopology.socketIds, none] at known
  exact absurd known List.not_mem_nil

/-- A directory that is not buildable is built in no order. -/
theorem buildable_of_generated {listing : Listing directory} {cores : List (Nat × Nat)}
    {result : FoundTopology} (generated : directory.generateTopology listing cores = .ok result) :
    directory.Buildable cores := by
  obtain ⟨based, topo, scanned, room, _⟩ := generateTopology_eq_ok generated
  have readable : ∀ folder ∈ directory.folders,
      ∃ action, directory.action folder = .ok action := by
    intro folder member
    by_contra unread
    rw [not_exists] at unread
    obtain ⟨first, passed, _⟩ := bind_eq_ok scanned
    exact foldlM_addFolder_error (listing.firstPerm.mem_iff.mpr member) unread .new first passed
  have leading : directory.domainMatched directory.folders = false →
      ∀ folder ∈ directory.folders, directory.isEligible folder = true →
        ∃ socketId, pieceOf (directory.path folder) 1 = .ok socketId := by
    intro unmatched folder member eligible
    rw [scan_of_unmatched listing unmatched readable] at scanned
    cases read : pieceOf (directory.path folder) 1 with
    | ok socketId => exact ⟨socketId, rfl⟩
    | error panic =>
        exact absurd scanned (foldlM_addSocketFolder_error (listing.secondPerm.mem_iff.mpr member)
          eligible read .new topo)
  refine ⟨based, readable, leading, room.imp_right fun some => ?_⟩
  cases matched : directory.domainMatched directory.folders with
  | true => exact Or.inl rfl
  | false =>
      obtain ⟨fallen, passed, fallback⟩ := foldlM_addSocketFolder
        fun folder member => leading matched folder (listing.secondPerm.mem_iff.mp member)
      rw [scan_of_unmatched listing matched readable, passed] at scanned
      cases scanned
      obtain ⟨s, isSocket⟩ := List.exists_mem_of_ne_nil _ some
      obtain ⟨folder, isMet, leads⟩ := (fallback.known s.id).mp (List.mem_map_of_mem isSocket)
      exact Or.inr ⟨folder, listing.secondPerm.mem_iff.mp isMet, leads.1⟩

theorem attachToDomain_ok (directory : Directory) {folder : Folder} (named : folder.name ≠ none)
    (domain : FoundDomain) : ∃ next, directory.attachToDomain folder domain = .ok next := by
  unfold attachToDomain
  cases isNamed : folder.name with
  | none => exact absurd isNamed named
  | some nameInFolder => exact ⟨_, rfl⟩

theorem markDomainsOf_ok (directory : Directory) {folder : Folder} (named : folder.name ≠ none)
    (socketId : Nat) (s : FoundSocket) :
    ∃ next, directory.markDomainsOf folder socketId s = .ok next := by
  choose attached each using directory.attachToDomain_ok named
  unfold markDomainsOf
  split
  · rw [mapM_eq_ok fun d _ => each d]
    exact ⟨_, rfl⟩
  · exact ⟨s, rfl⟩

theorem markDomains_ok (directory : Directory) {folder : Folder} (named : folder.name ≠ none)
    (topo : FoundTopology) (socketId : Nat) :
    ∃ next, directory.markDomains folder topo socketId = .ok next := by
  choose marked each using directory.markDomainsOf_ok named socketId
  unfold markDomains
  rw [mapM_eq_ok fun s _ => each s]
  exact ⟨_, rfl⟩

/-- Where the names of the folders can be read, the first pass returns. -/
theorem foldlM_addFolder_ok {folders : List Folder}
    (readable : ∀ folder ∈ folders, ∃ action, directory.action folder = .ok action)
    (named : ∀ folder ∈ folders, folder.name ≠ none) :
    ∃ result, folders.foldlM directory.addFolder .new = .ok result := by
  obtain ⟨result, passed, _⟩ : ∃ result,
      folders.foldlM directory.addFolder .new = .ok result ∧ True := by
    refine foldlM_ok (fun _ => True) ?_ trivial
    intro topo folder member _
    obtain ⟨action, read⟩ := readable folder member
    rw [directory.addFolder_of_action read]
    cases action with
    | domain socketId domainId resource => exact ⟨_, rfl, trivial⟩
    | socketMmio socketId => exact ⟨_, rfl, trivial⟩
    | nothing => exact ⟨_, rfl, trivial⟩
    | domainMmio socketId =>
        obtain ⟨next, marked⟩ := directory.markDomains_ok (named folder member) topo socketId
        exact ⟨next, marked, trivial⟩
  exact ⟨result, passed⟩

/-- The directory has a folder that leads to this socket. -/
def Leads (directory : Directory) (id : Nat) : Prop :=
  if directory.domainMatched directory.folders then
    ∃ folder ∈ directory.folders, directory.BelongsTo id folder
  else ∃ folder ∈ directory.folders, directory.LeadsTo id folder

/-- What the sockets of a topology are, whatever the order of the listings. -/
structure Discovered (directory : Directory) (topo : FoundTopology) : Prop where
  distinct : topo.socketIds.Nodup
  source : ∀ s ∈ topo.sockets,
    s.sensorData.sourceFile = directory.socketPath s.id ++ "/energy_uj".toList
  known : ∀ id, id ∈ topo.socketIds ↔ directory.Leads id

theorem discovered_of_matched {listing : Listing directory}
    (matched : directory.domainMatched directory.folders = true)
    (passed : listing.first.foldlM directory.addFolder .new = .ok topo) :
    directory.Discovered topo := by
  have described : directory.Described listing.first topo.bare := by
    rw [directory.bare_foldlM passed]
    exact described_foldl listing.first
  have sameIds : topo.bare.socketIds = topo.socketIds := by
    unfold FoundTopology.socketIds FoundTopology.bare
    rw [List.map_map]
    rfl
  refine ⟨sameIds ▸ described.distinct, ?_, ?_⟩
  · intro s isSocket
    have data := described.data s.bare (List.mem_map_of_mem isSocket)
    exact congrArg (fun found => found.sensorData.sourceFile) data
  · intro id
    rw [← sameIds, described.known, Leads, if_pos matched]
    simp only [listing.firstPerm.mem_iff]

theorem discovered_of_unmatched {listing : Listing directory}
    (unmatched : directory.domainMatched directory.folders = false)
    (fallback : directory.Fallback listing.second topo) : directory.Discovered topo := by
  refine ⟨fallback.distinct, ?_, ?_⟩
  · intro s isSocket
    exact congrArg (fun found => found.sensorData.sourceFile) (fallback.data s isSocket)
  · intro id
    rw [fallback.known, Leads, unmatched, if_neg Bool.false_ne_true]
    simp only [listing.secondPerm.mem_iff]

/-- The first two passes return and leave the sockets that the folders lead to. -/
theorem Buildable.scans {cores : List (Nat × Nat)} (buildable : directory.Buildable cores)
    (named : ∀ folder ∈ directory.folders, folder.name ≠ none) (listing : Listing directory) :
    ∃ topo, directory.scan listing = .ok topo ∧ directory.Discovered topo := by
  cases matched : directory.domainMatched directory.folders with
  | true =>
      obtain ⟨topo, passed⟩ := foldlM_addFolder_ok
        (fun folder member => buildable.readable folder (listing.firstPerm.mem_iff.mp member))
        (fun folder member => named folder (listing.firstPerm.mem_iff.mp member))
      exact ⟨topo, (scan_of_matched listing matched).trans passed,
        discovered_of_matched matched passed⟩
  | false =>
      obtain ⟨topo, passed, fallback⟩ := foldlM_addSocketFolder
        fun folder member => buildable.leading matched folder (listing.secondPerm.mem_iff.mp member)
      exact ⟨topo, (scan_of_unmatched listing matched buildable.readable).trans passed,
        discovered_of_unmatched matched fallback⟩

/-- A buildable directory with a folder that can make a socket leads to one. -/
theorem Buildable.leads {cores : List (Nat × Nat)} (buildable : directory.Buildable cores)
    (some : directory.domainMatched directory.folders = true ∨
      ∃ folder ∈ directory.folders, directory.isEligible folder = true) :
    ∃ id, directory.Leads id := by
  unfold Leads
  cases matched : directory.domainMatched directory.folders with
  | true =>
      obtain ⟨folder, member, isDomain⟩ := List.any_eq_true.mp matched
      obtain ⟨action, read⟩ := buildable.readable folder member
      obtain ⟨socketId, domainId, resource, rfl⟩ :=
        directory.action_of_isDomainFolder read isDomain
      exact ⟨socketId, folder, member, domainId, resource, read⟩
  | false =>
      rcases some with isMatched | ⟨folder, member, eligible⟩
      · rw [matched] at isMatched
        cases isMatched
      · obtain ⟨socketId, read⟩ := buildable.leading matched folder member eligible
        exact ⟨socketId, folder, member, eligible, read⟩

theorem Buildable.hasRoom {cores : List (Nat × Nat)} (buildable : directory.Buildable cores)
    (discovered : directory.Discovered topo) : cores = [] ∨ topo.sockets ≠ [] := by
  rcases buildable.room with none | some
  · exact Or.inl none
  · obtain ⟨id, leads⟩ := buildable.leads some
    exact Or.inr (sockets_ne_nil_of_known ((discovered.known id).mpr leads))

theorem Discovered.of_sameButCores {listing : Listing directory} {result : FoundTopology}
    (discovered : directory.Discovered topo)
    (same : FoundTopology.SameButCores (directory.withPsys listing topo) result) :
    directory.Discovered result := by
  have sameIds : result.socketIds = topo.socketIds := by
    have ids := congrArg (List.map FoundSocket.id) same.sockets
    rw [List.map_map, List.map_map] at ids
    exact ids
  refine ⟨sameIds ▸ discovered.distinct, ?_, ?_⟩
  · intro s isSocket
    have image : FoundTopology.withoutCores s ∈
        topo.sockets.map FoundTopology.withoutCores :=
      same.sockets ▸ List.mem_map_of_mem isSocket
    obtain ⟨t, isOld, matched⟩ := List.mem_map.mp image
    have source := discovered.source t isOld
    rw [FoundTopology.withoutCores, FoundTopology.withoutCores, FoundSocket.mk.injEq] at matched
    obtain ⟨sameId, _, _, _, sameData⟩ := matched
    rw [sameId, sameData] at source
    exact source
  · intro id
    rw [sameIds]
    exact discovered.known id

/-- Where all names can be read, a buildable directory is built, with the sockets that its
folders lead to. -/
theorem Buildable.discovers {cores : List (Nat × Nat)} (buildable : directory.Buildable cores)
    (named : ∀ folder ∈ directory.folders, folder.name ≠ none) (listing : Listing directory) :
    ∃ result, directory.generateTopology listing cores = .ok result ∧
      directory.Discovered result := by
  obtain ⟨topo, scanned, discovered⟩ := buildable.scans named listing
  obtain ⟨result, generated, same⟩ :=
    generateTopology_ok buildable.based scanned (buildable.hasRoom discovered)
  exact ⟨result, generated, discovered.of_sameButCores same⟩

end Directory

end ScaphandreFormal.Sensors.Powercap
