import ScaphandreFormal.Sensors.PowercapContent

/-!
# The order in which a directory is listed

`read_dir` promises no order.  The discovery returns the same topology for every
order exactly when no mmio folder has a socket or a domain to be handed to, two
folders that ask for the same domain describe it the same way, and one folder at
most is named psys.
-/

namespace ScaphandreFormal.Sensors.Powercap

open Foundation

/-! ## The same topology -/

/-- The sockets agree in all but their cores, their domains taken as a set. -/
structure SameSocket (s other : FoundSocket) : Prop where
  id : s.id = other.id
  counterUjPath : s.counterUjPath = other.counterUjPath
  sensorData : s.sensorData = other.sensorData
  domains : ∀ d, d ∈ s.domains ↔ d ∈ other.domains

/-- The topologies agree in their sockets, taken as a set, in the names of the domains and in
psys. -/
structure SameTopology (topo other : FoundTopology) : Prop where
  sockets : ∀ s ∈ topo.sockets, ∃ t ∈ other.sockets, SameSocket s t
  noOthers : ∀ t ∈ other.sockets, ∃ s ∈ topo.sockets, SameSocket s t
  domainsNames : topo.domainsNames = other.domainsNames
  psys : topo.psys = other.psys

/-- Two runs of the discovery end the same way. -/
def SameOutcome :
    Except DiscoveryPanic FoundTopology → Except DiscoveryPanic FoundTopology → Prop
  | .ok topo, .ok other => SameTopology topo other
  | .error _, .error _ => True
  | _, _ => False

theorem SameSocket.symm {s t : FoundSocket} (same : SameSocket s t) : SameSocket t s :=
  ⟨same.id.symm, same.counterUjPath.symm, same.sensorData.symm, fun d => (same.domains d).symm⟩

theorem SameSocket.trans {s t u : FoundSocket} (first : SameSocket s t)
    (second : SameSocket t u) : SameSocket s u :=
  ⟨first.id.trans second.id, first.counterUjPath.trans second.counterUjPath,
    first.sensorData.trans second.sensorData,
    fun d => (first.domains d).trans (second.domains d)⟩

namespace SameTopology

variable {topo other third : FoundTopology}

theorem symm (same : SameTopology topo other) : SameTopology other topo := by
  refine ⟨?_, ?_, same.domainsNames.symm, same.psys.symm⟩
  · intro t isSocket
    obtain ⟨s, isOther, matched⟩ := same.noOthers t isSocket
    exact ⟨s, isOther, matched.symm⟩
  · intro s isSocket
    obtain ⟨t, isOther, matched⟩ := same.sockets s isSocket
    exact ⟨t, isOther, matched.symm⟩

theorem trans (first : SameTopology topo other) (second : SameTopology other third) :
    SameTopology topo third := by
  refine ⟨?_, ?_, first.domainsNames.trans second.domainsNames, first.psys.trans second.psys⟩
  · intro s isSocket
    obtain ⟨t, isOther, matched⟩ := first.sockets s isSocket
    obtain ⟨u, isThird, further⟩ := second.sockets t isOther
    exact ⟨u, isThird, matched.trans further⟩
  · intro u isSocket
    obtain ⟨t, isOther, matched⟩ := second.noOthers u isSocket
    obtain ⟨s, isFirst, further⟩ := first.noOthers t isOther
    exact ⟨s, isFirst, further.trans matched⟩

theorem of_withoutCores {s t : FoundSocket}
    (same : FoundTopology.withoutCores s = FoundTopology.withoutCores t) : SameSocket s t := by
  simp only [FoundTopology.withoutCores, FoundSocket.mk.injEq] at same
  obtain ⟨id, domains, counterUjPath, _, sensorData⟩ := same
  refine ⟨id, counterUjPath, sensorData, ?_⟩
  intro d
  rw [domains]

theorem exists_of_map_withoutCores {sockets others : List FoundSocket}
    (same : sockets.map FoundTopology.withoutCores = others.map FoundTopology.withoutCores) :
    ∀ s ∈ sockets, ∃ t ∈ others, SameSocket s t := by
  intro s isSocket
  have image : FoundTopology.withoutCores s ∈ others.map FoundTopology.withoutCores :=
    same ▸ List.mem_map_of_mem isSocket
  obtain ⟨t, isOther, matched⟩ := List.mem_map.mp image
  exact ⟨t, isOther, of_withoutCores matched.symm⟩

/-- Giving out the cores changes nothing that is compared. -/
theorem of_sameButCores (same : FoundTopology.SameButCores topo other) :
    SameTopology topo other := by
  refine ⟨exists_of_map_withoutCores same.sockets.symm, ?_, same.domainsNames.symm,
    same.psys.symm⟩
  intro t isSocket
  obtain ⟨s, isOther, matched⟩ := exists_of_map_withoutCores same.sockets t isSocket
  exact ⟨s, isOther, matched.symm⟩

end SameTopology

namespace Directory

variable {directory : Directory} {topo other : FoundTopology}

/-! ## When the order does not matter -/

/-- Where both folders ask for a domain, they describe it the same way. -/
def Agree (directory : Directory) (folder twin : Folder) : Prop :=
  ∀ socketId domainId resource another,
    directory.AsksFor socketId domainId resource folder →
    directory.AsksFor socketId domainId another twin →
      directory.newDomain folder socketId domainId resource =
        directory.newDomain twin socketId domainId another

/-- Nothing is left to the order. -/
structure Steady (directory : Directory) : Prop where
  undisturbed : ∀ before ∈ directory.folders, ∀ folder ∈ directory.folders,
    directory.Undisturbed before folder
  agreeing : ∀ folder ∈ directory.folders, ∀ twin ∈ directory.folders,
    directory.Agree folder twin
  onePsys : ∀ folder ∈ directory.folders, ∀ twin ∈ directory.folders,
    isPsys folder = true → isPsys twin = true → folder = twin

section Reordered

variable {met others : List Folder} (described : directory.Described met topo)
  (redescribed : directory.Described others other)

include described redescribed

theorem mem_domains_of_agree (within : ∀ folder ∈ met, folder ∈ others)
    (agreeing : ∀ folder ∈ met, ∀ twin ∈ others, directory.Agree folder twin)
    {s t : FoundSocket} (isSocket : s ∈ topo.sockets) (isOther : t ∈ other.sockets)
    (sameId : t.id = s.id) {d : FoundDomain} (isDomain : d ∈ s.domains) : d ∈ t.domains := by
  obtain ⟨folder, isMet, resource, asks, made⟩ := described.origin s isSocket d isDomain
  have covered := redescribed.covered t isOther folder (within folder isMet) d.id resource
    (sameId ▸ asks)
  obtain ⟨e, isOtherDomain, sameDomainId⟩ := List.mem_map.mp covered
  obtain ⟨twin, isTwin, another, asksToo, remade⟩ := redescribed.origin t isOther e isOtherDomain
  rw [sameId, sameDomainId] at asksToo remade
  have equal := agreeing folder isMet twin isTwin s.id d.id resource another asks asksToo
  rw [made, equal, ← remade]
  exact isOtherDomain

theorem exists_sameSocket (perm : met.Perm others)
    (agreeing : ∀ folder ∈ met, ∀ twin ∈ met, directory.Agree folder twin) :
    ∀ s ∈ topo.sockets, ∃ t ∈ other.sockets, SameSocket s t := by
  intro s isSocket
  have known : s.id ∈ other.socketIds := by
    rw [redescribed.known]
    obtain ⟨folder, isMet, belongs⟩ :=
      (described.known s.id).mp (List.mem_map_of_mem isSocket)
    exact ⟨folder, perm.mem_iff.mp isMet, belongs⟩
  obtain ⟨t, isOther, sameId⟩ := List.mem_map.mp known
  have sameData : { s with domains := [] } = ({ t with domains := [] } : FoundSocket) := by
    rw [described.data s isSocket, redescribed.data t isOther, sameId]
  rw [FoundSocket.mk.injEq] at sameData
  obtain ⟨_, _, sameCounter, _, sameSensor⟩ := sameData
  refine ⟨t, isOther, sameId.symm, sameCounter, sameSensor, ?_⟩
  intro d
  constructor
  · refine mem_domains_of_agree described redescribed (fun _ => perm.mem_iff.mp) ?_ isSocket
      isOther sameId
    exact fun folder isMet twin isTwin => agreeing folder isMet twin (perm.mem_iff.mpr isTwin)
  · refine mem_domains_of_agree redescribed described (fun _ => perm.mem_iff.mpr) ?_ isOther
      isSocket sameId.symm
    exact fun folder isMet twin isTwin => agreeing folder (perm.mem_iff.mpr isMet) twin isTwin

end Reordered

/-- The sorted list of names depends on the set of names only. -/
theorem buildDomainsNames_eq_of_sameSocket
    (forth : ∀ s ∈ topo.sockets, ∃ t ∈ other.sockets, SameSocket s t)
    (back : ∀ t ∈ other.sockets, ∃ s ∈ topo.sockets, SameSocket t s) :
    topo.buildDomainsNames.domainsNames = other.buildDomainsNames.domainsNames := by
  have within : ∀ {first second : FoundTopology},
      (∀ s ∈ first.sockets, ∃ t ∈ second.sockets, SameSocket s t) → ∀ name,
        name ∈ (first.sockets.flatMap fun s => s.domains.map FoundDomain.name) →
          name ∈ second.sockets.flatMap fun s => s.domains.map FoundDomain.name := by
    intro first second sockets name isName
    obtain ⟨s, isSocket, named⟩ := List.mem_flatMap.mp isName
    obtain ⟨d, isDomain, rfl⟩ := List.mem_map.mp named
    obtain ⟨t, isOther, same⟩ := sockets s isSocket
    exact List.mem_flatMap.mpr ⟨t, isOther, List.mem_map_of_mem ((same.domains d).mp isDomain)⟩
  have perm : (topo.sockets.flatMap fun s => s.domains.map FoundDomain.name).dedup.Perm
      (other.sockets.flatMap fun s => s.domains.map FoundDomain.name).dedup := by
    rw [List.perm_ext_iff_of_nodup (List.nodup_dedup _) (List.nodup_dedup _)]
    intro name
    rw [List.mem_dedup, List.mem_dedup]
    exact ⟨within forth name, within back name⟩
  have sorted := ((List.perm_insertionSort (· ≤ ·) _).trans
    (perm.trans (List.perm_insertionSort (· ≤ ·) _).symm)).eq_of_pairwise'
      (List.pairwise_insertionSort (· ≤ ·) _) (List.pairwise_insertionSort (· ≤ ·) _)
  exact congrArg some sorted

/-- Two passes in different order over folders that agree leave the same. -/
theorem Described.sameTopology {met others : List Folder}
    (described : directory.Described met topo) (redescribed : directory.Described others other)
    (perm : met.Perm others)
    (agreeing : ∀ folder ∈ met, ∀ twin ∈ met, directory.Agree folder twin) :
    SameTopology topo other := by
  have forth := exists_sameSocket described redescribed perm agreeing
  have back := exists_sameSocket redescribed described perm.symm fun folder isMet twin isTwin =>
    agreeing folder (perm.mem_iff.mpr isMet) twin (perm.mem_iff.mpr isTwin)
  have asked : (∃ folder ∈ met, ∃ socketId domainId resource,
      directory.AsksFor socketId domainId resource folder) ↔
      ∃ folder ∈ others, ∃ socketId domainId resource,
        directory.AsksFor socketId domainId resource folder := by
    simp only [perm.mem_iff]
  refine ⟨forth, ?_, ?_, described.noPsys.trans redescribed.noPsys.symm⟩
  · intro t isSocket
    obtain ⟨s, isOther, same⟩ := back t isSocket
    exact ⟨s, isOther, same.symm⟩
  · by_cases some : ∃ folder ∈ met, ∃ socketId domainId resource,
        directory.AsksFor socketId domainId resource folder
    · rw [described.named some, redescribed.named (asked.mp some)]
      exact buildDomainsNames_eq_of_sameSocket forth back
    · rw [described.unnamed some, redescribed.unnamed (mt asked.mpr some)]

/-- The second pass leaves the same in every order. -/
theorem Fallback.sameTopology {met others : List Folder}
    (fallback : directory.Fallback met topo) (another : directory.Fallback others other)
    (perm : met.Perm others) : SameTopology topo other := by
  have within : ∀ {first second : List Folder} {a b : FoundTopology},
      directory.Fallback first a → directory.Fallback second b → first.Perm second →
        ∀ s ∈ a.sockets, s ∈ b.sockets := by
    intro first second a b here there reordered s isSocket
    obtain ⟨folder, isMet, leads⟩ := (here.known s.id).mp (List.mem_map_of_mem isSocket)
    obtain ⟨t, isOther, sameId⟩ := List.mem_map.mp
      ((there.known s.id).mpr ⟨folder, reordered.mem_iff.mp isMet, leads⟩)
    rw [here.data s isSocket, ← sameId, ← there.data t isOther]
    exact isOther
  refine ⟨?_, ?_, fallback.unnamed.trans another.unnamed.symm,
    fallback.noPsys.trans another.noPsys.symm⟩
  · intro s isSocket
    exact ⟨s, within fallback another perm s isSocket, rfl, rfl, rfl, fun _ => Iff.rfl⟩
  · intro t isSocket
    exact ⟨t, within another fallback perm.symm t isSocket, rfl, rfl, rfl, fun _ => Iff.rfl⟩

/-- What the first two passes leave where no mmio path is given. -/
inductive Plain (directory : Directory) (listing : Listing directory) : FoundTopology → Prop where
  | domains (matched : directory.domainMatched directory.folders = true) :
      Plain directory listing (listing.first.foldl directory.addBare .new)
  | sockets {topo : FoundTopology}
      (unmatched : directory.domainMatched directory.folders = false)
      (fallback : directory.Fallback listing.second topo) : Plain directory listing topo

theorem Plain.sameTopology {listing relisting : Listing directory}
    (plain : directory.Plain listing topo) (another : directory.Plain relisting other)
    (agreeing : ∀ folder ∈ directory.folders, ∀ twin ∈ directory.folders,
      directory.Agree folder twin) : SameTopology topo other := by
  cases plain with
  | domains matched =>
      cases another with
      | domains _ =>
          refine (described_foldl _).sameTopology (described_foldl _)
            (listing.firstPerm.trans relisting.firstPerm.symm) ?_
          intro folder isMet twin isTwin
          exact agreeing folder (listing.firstPerm.mem_iff.mp isMet) twin
            (listing.firstPerm.mem_iff.mp isTwin)
      | sockets unmatched _ =>
          rw [matched] at unmatched
          cases unmatched
  | sockets unmatched fallback =>
      cases another with
      | domains matched =>
          rw [matched] at unmatched
          cases unmatched
      | sockets _ refallback =>
          exact fallback.sameTopology refallback
            (listing.secondPerm.trans relisting.secondPerm.symm)

theorem Plain.noPsys {listing : Listing directory} (plain : directory.Plain listing topo) :
    topo.psys = none := by
  cases plain with
  | domains _ => exact (described_foldl listing.first).noPsys
  | sockets _ fallback => exact fallback.noPsys

/-- A directory that can be built is built in every order that gives no mmio path. -/
theorem Buildable.generates {cores : List (Nat × Nat)} (buildable : directory.Buildable cores)
    (listing : Listing directory) (undisturbed : listing.first.Pairwise directory.Undisturbed) :
    ∃ topo result, directory.Plain listing topo ∧
      directory.generateTopology listing cores = .ok result ∧
      SameTopology (directory.withPsys listing topo) result := by
  have scans : ∃ topo, directory.scan listing = .ok topo ∧ directory.Plain listing topo ∧
      directory.Discovered topo := by
    cases matched : directory.domainMatched directory.folders with
    | true =>
        have passed := foldlM_addFolder_of_undisturbed
          (fun folder member => buildable.readable folder (listing.firstPerm.mem_iff.mp member))
          undisturbed
        exact ⟨_, (scan_of_matched listing matched).trans passed, .domains matched,
          discovered_of_matched matched passed⟩
    | false =>
        obtain ⟨topo, passed, fallback⟩ := foldlM_addSocketFolder fun folder member =>
          buildable.leading matched folder (listing.secondPerm.mem_iff.mp member)
        exact ⟨topo, (scan_of_unmatched listing matched buildable.readable).trans passed,
          .sockets matched fallback, discovered_of_unmatched matched fallback⟩
  obtain ⟨topo, scanned, plain, discovered⟩ := scans
  obtain ⟨result, generated, same⟩ :=
    generateTopology_ok buildable.based scanned (buildable.hasRoom discovered)
  exact ⟨topo, result, plain, generated, SameTopology.of_sameButCores same⟩

/-! ### Enough -/

theorem psys_withPsys (listing relisting : Listing directory)
    (onePsys : ∀ folder ∈ directory.folders, ∀ twin ∈ directory.folders,
      isPsys folder = true → isPsys twin = true → folder = twin) :
    (listing.third.reverse.find? isPsys).map directory.path =
      (relisting.third.reverse.find? isPsys).map directory.path := by
  have member : ∀ {any : Listing directory} {folder : Folder},
      any.third.reverse.find? isPsys = some folder →
        folder ∈ directory.folders ∧ isPsys folder = true := by
    intro any folder found
    exact ⟨any.thirdPerm.mem_iff.mp (List.mem_reverse.mp (List.mem_of_find?_eq_some found)),
      List.find?_some found⟩
  have missing : ∀ {any : Listing directory}, any.third.reverse.find? isPsys = none →
      ∀ folder ∈ directory.folders, ¬ isPsys folder = true := by
    intro any absent folder isFolder
    exact List.find?_eq_none.mp absent folder
      (List.mem_reverse.mpr (any.thirdPerm.mem_iff.mpr isFolder))
  cases here : listing.third.reverse.find? isPsys with
  | none =>
      cases there : relisting.third.reverse.find? isPsys with
      | none => rfl
      | some twin => exact absurd (member there).2 (missing here twin (member there).1)
  | some folder =>
      cases there : relisting.third.reverse.find? isPsys with
      | none => exact absurd (member here).2 (missing there folder (member here).1)
      | some twin =>
          rw [onePsys folder (member here).1 twin (member there).1 (member here).2
            (member there).2]

theorem sameTopology_withPsys {listing relisting : Listing directory}
    (same : SameTopology topo other)
    (samePsys : (listing.third.reverse.find? isPsys).map directory.path =
      (relisting.third.reverse.find? isPsys).map directory.path) :
    SameTopology (directory.withPsys listing topo) (directory.withPsys relisting other) := by
  refine ⟨same.sockets, same.noOthers, same.domainsNames, ?_⟩
  unfold Directory.withPsys
  simp only [samePsys, same.psys]

/-- Nothing is left to the order of a steady directory. -/
theorem sameOutcome_of_steady {cores : List (Nat × Nat)} (buildable : directory.Buildable cores)
    (steady : directory.Steady) (listing relisting : Listing directory) :
    SameOutcome (directory.generateTopology listing cores)
      (directory.generateTopology relisting cores) := by
  have undisturbed : ∀ any : Listing directory, any.first.Pairwise directory.Undisturbed := by
    intro any
    apply List.pairwise_of_forall_mem_list
    intro before isBefore folder isFolder
    exact steady.undisturbed before (any.firstPerm.mem_iff.mp isBefore) folder
      (any.firstPerm.mem_iff.mp isFolder)
  obtain ⟨topo, result, plain, generated, same⟩ :=
    buildable.generates listing (undisturbed listing)
  obtain ⟨other, another, replain, regenerated, resame⟩ :=
    buildable.generates relisting (undisturbed relisting)
  rw [generated, regenerated]
  have between := sameTopology_withPsys (plain.sameTopology replain steady.agreeing)
    (psys_withPsys listing relisting steady.onePsys)
  exact same.symm.trans (between.trans resame)

/-! ### Necessary -/

/-- The domain folders come last. -/
def domainsLast (directory : Directory) (folders : List Folder) : List Folder :=
  folders.filter (fun folder => !isDomainFolder (directory.path folder)) ++
    folders.filter fun folder => isDomainFolder (directory.path folder)

theorem domainsLast_perm (folders : List Folder) :
    (directory.domainsLast folders).Perm folders :=
  List.perm_append_comm.trans (List.filter_append_perm _ folders)

theorem not_domain_of_mem_filter {folders : List Folder} {folder : Folder}
    (member : folder ∈ folders.filter fun folder => !isDomainFolder (directory.path folder)) :
    isDomainFolder (directory.path folder) = false := by
  simpa using List.of_mem_filter member

/-- A domain folder gives no mmio path. -/
theorem undisturbed_of_domain {folder : Folder}
    (isDomain : isDomainFolder (directory.path folder) = true) (before : Folder) :
    directory.Undisturbed before folder := by
  constructor
  · intro socketId read
    obtain ⟨_, _, _, other⟩ := directory.action_of_isDomainFolder read isDomain
    cases other
  · intro socketId read
    obtain ⟨_, _, _, other⟩ := directory.action_of_isDomainFolder read isDomain
    cases other

theorem undisturbed_domainsLast (folders : List Folder) :
    (directory.domainsLast folders).Pairwise directory.Undisturbed := by
  refine List.pairwise_append.mpr ⟨?_, ?_, ?_⟩
  · apply List.pairwise_of_forall_mem_list
    intro before isBefore folder _
    exact undisturbed_of_not_domain (not_domain_of_mem_filter isBefore) folder
  · apply List.pairwise_of_forall_mem_list
    intro before _ folder member
    have isDomain := List.of_mem_filter member
    exact undisturbed_of_domain isDomain before
  · intro before isBefore folder _
    exact undisturbed_of_not_domain (not_domain_of_mem_filter isBefore) folder

theorem foldl_addBare_domainsLast (folders : List Folder) :
    (directory.domainsLast folders).foldl directory.addBare .new =
      (folders.filter fun folder => isDomainFolder (directory.path folder)).foldl
        directory.addBare .new := by
  unfold domainsLast
  rw [List.foldl_append, foldl_addBare_of_not_domain fun _ => not_domain_of_mem_filter]

/-- The listing that has the domain folders last in the first pass. -/
def quietly {folders third : List Folder} (perm : folders.Perm directory.folders)
    (thirdPerm : third.Perm directory.folders) : Listing directory where
  first := directory.domainsLast folders
  second := folders
  third := third
  firstPerm := (domainsLast_perm folders).trans perm
  secondPerm := perm
  thirdPerm := thirdPerm

end Directory

/-! #### Mmio paths -/

def FoundSocket.HasMmio (s : FoundSocket) : Prop :=
  s.sensorData.mmio ≠ none ∨ ∃ d ∈ s.domains, d.sensorData.mmio ≠ none

/-- Some socket or domain has an mmio path. -/
def FoundTopology.HasMmio (topo : FoundTopology) : Prop := ∃ s ∈ topo.sockets, s.HasMmio

theorem SameTopology.hasMmio {topo other : FoundTopology} (same : SameTopology topo other)
    (given : topo.HasMmio) : other.HasMmio := by
  obtain ⟨s, isSocket, marked⟩ := given
  obtain ⟨t, isOther, matched⟩ := same.sockets s isSocket
  refine ⟨t, isOther, ?_⟩
  rcases marked with onSocket | ⟨d, isDomain, onDomain⟩
  · rw [matched.sensorData] at onSocket
    exact Or.inl onSocket
  · exact Or.inr ⟨d, (matched.domains d).mp isDomain, onDomain⟩

namespace Directory

variable {directory : Directory} {topo : FoundTopology}

theorem hasMmio_addDomain (given : topo.HasMmio) (folder : Folder) (socketId domainId : Nat)
    (resource : Option DomainResource) :
    (directory.addDomain folder topo socketId domainId resource).HasMmio := by
  obtain ⟨s, isSocket, marked⟩ := given
  refine ⟨directory.extend folder socketId domainId resource s, ?_, ?_⟩
  · rw [sockets_addDomain]
    exact List.mem_map_of_mem (FoundTopology.mem_sockets_safeAddSocket.mpr (Or.inl isSocket))
  · rcases marked with onSocket | ⟨d, isDomain, onDomain⟩
    · obtain ⟨domains, same⟩ := directory.extend_eq folder socketId domainId resource s
      rw [same]
      exact Or.inl onSocket
    · exact Or.inr ⟨d, mem_domains_extend.mpr (Or.inl isDomain), onDomain⟩

theorem hasMmio_markSocket (given : topo.HasMmio) (socketId : Nat) :
    (directory.markSocket topo socketId).HasMmio := by
  obtain ⟨s, isSocket, marked⟩ := given
  refine ⟨_, List.mem_map_of_mem isSocket, ?_⟩
  simp only
  split
  · exact Or.inl (Option.some_ne_none _)
  · exact marked

theorem mmio_attachToDomain {folder : Folder} {domain next : FoundDomain}
    (attached : directory.attachToDomain folder domain = .ok next)
    (given : domain.sensorData.mmio ≠ none) : next.sensorData.mmio ≠ none := by
  unfold attachToDomain at attached
  split at attached
  · cases attached
    split
    · exact Option.some_ne_none _
    · exact given
  · cases attached

theorem hasMmio_markDomainsOf {folder : Folder} {socketId : Nat} {s next : FoundSocket}
    (marked : directory.markDomainsOf folder socketId s = .ok next) (given : s.HasMmio) :
    next.HasMmio := by
  unfold markDomainsOf at marked
  split at marked
  · obtain ⟨domains, mapped, marked⟩ := bind_eq_ok marked
    cases marked
    rcases given with onSocket | ⟨d, isDomain, onDomain⟩
    · exact Or.inl onSocket
    · obtain ⟨e, isNew, attached⟩ := exists_mem_of_mapM_eq_ok mapped d isDomain
      exact Or.inr ⟨e, isNew, mmio_attachToDomain attached onDomain⟩
  · cases marked
    exact given

/-- No folder takes an mmio path away. -/
theorem hasMmio_addFolder {folder : Folder} {next : FoundTopology} (given : topo.HasMmio)
    (added : directory.addFolder topo folder = .ok next) : next.HasMmio := by
  obtain ⟨action, _, performed⟩ := directory.addFolder_eq_ok added
  cases action with
  | domain socketId domainId resource =>
      cases performed
      exact hasMmio_addDomain given folder socketId domainId resource
  | socketMmio socketId =>
      cases performed
      exact hasMmio_markSocket given socketId
  | domainMmio socketId =>
      obtain ⟨sockets, mapped, marked⟩ := bind_eq_ok performed
      cases marked
      obtain ⟨s, isSocket, onSocket⟩ := given
      obtain ⟨t, isNew, changed⟩ := exists_mem_of_mapM_eq_ok mapped s isSocket
      exact ⟨t, isNew, hasMmio_markDomainsOf changed onSocket⟩
  | nothing =>
      cases performed
      exact given

theorem Plain.not_hasMmio {listing : Listing directory} (plain : directory.Plain listing topo) :
    ¬ topo.HasMmio := by
  rintro ⟨s, isSocket, marked⟩
  cases plain with
  | domains matched =>
      have described : directory.Described listing.first _ := described_foldl listing.first
      rcases marked with onSocket | ⟨d, isDomain, onDomain⟩
      · have bare := congrArg FoundSocket.sensorData (described.data s isSocket)
        change s.sensorData = _ at bare
        rw [bare] at onSocket
        exact onSocket rfl
      · obtain ⟨folder, _, resource, _, made⟩ := described.origin s isSocket d isDomain
        rw [made] at onDomain
        exact onDomain rfl
  | sockets unmatched fallback =>
      rw [fallback.data s isSocket] at marked
      rcases marked with onSocket | ⟨d, isDomain, _⟩
      · exact onSocket rfl
      · exact absurd isDomain List.not_mem_nil

/-- A socket mmio folder right after a domain folder of its socket gives its path. -/
theorem hasMmio_of_socketMmio {before : Folder} {socketId domainId : Nat}
    {resource : Option DomainResource}
    (read : directory.action before = .ok (.domain socketId domainId resource)) :
    (directory.markSocket (directory.addDomain before .new socketId domainId resource)
      socketId).HasMmio := by
  have described := described_new.addDomain read
  obtain ⟨s, isSocket, rfl⟩ := List.mem_map.mp ((described.known socketId).mpr
    ⟨before, List.mem_singleton_self before, domainId, resource, read⟩)
  refine ⟨_, List.mem_map_of_mem isSocket, ?_⟩
  simp only [if_true]
  exact Or.inl (Option.some_ne_none _)

/-- The domain is in the socket of this id. -/
def Holds (topo : FoundTopology) (socketId : Nat) (domain : FoundDomain) : Prop :=
  ∃ s ∈ topo.sockets, s.id = socketId ∧ domain ∈ s.domains

theorem holds_addDomain_new {folder : Folder} {socketId domainId : Nat}
    {resource : DomainResource} (asks : directory.AsksFor socketId domainId resource folder) :
    Holds (directory.addDomain folder .new socketId domainId (some resource)) socketId
      (directory.newDomain folder socketId domainId resource) := by
  have described := described_new.addDomain asks
  obtain ⟨s, isSocket, rfl⟩ := List.mem_map.mp ((described.known socketId).mpr
    ⟨folder, List.mem_singleton_self folder, domainId, some resource, asks⟩)
  obtain ⟨d, isDomain, rfl⟩ := List.mem_map.mp
    (described.covered s isSocket folder (List.mem_singleton_self folder) domainId resource asks)
  obtain ⟨maker, isMaker, another, asksToo, made⟩ := described.origin s isSocket d isDomain
  rw [List.mem_singleton.mp isMaker] at asksToo made
  rw [AsksFor, asks] at asksToo
  cases asksToo
  exact ⟨s, isSocket, rfl, made ▸ isDomain⟩

/-- A domain mmio folder right after a domain folder gives its path when the names are the
same. -/
theorem hasMmio_of_domainMmio {before folder : Folder} {socketId domainId : Nat}
    {resource : DomainResource} (asks : directory.AsksFor socketId domainId resource before)
    {next : FoundTopology}
    (marked : directory.markDomains folder
      (directory.addDomain before .new socketId domainId (some resource)) socketId = .ok next) :
    ∃ nameInFolder, folder.name = some nameInFolder ∧
      (trim nameInFolder = resource.text → next.HasMmio) := by
  obtain ⟨s, isSocket, rfl, isDomain⟩ := holds_addDomain_new asks
  obtain ⟨sockets, mapped, marked⟩ := bind_eq_ok marked
  cases marked
  obtain ⟨t, isNew, changed⟩ := exists_mem_of_mapM_eq_ok mapped s isSocket
  rw [markDomainsOf, if_pos rfl] at changed
  obtain ⟨domains, domainsMapped, changed⟩ := bind_eq_ok changed
  cases changed
  obtain ⟨e, isNewDomain, attached⟩ := exists_mem_of_mapM_eq_ok domainsMapped _ isDomain
  unfold attachToDomain at attached
  cases named : folder.name with
  | none =>
      rw [named] at attached
      cases attached
  | some nameInFolder =>
      rw [named] at attached
      cases attached
      refine ⟨nameInFolder, rfl, ?_⟩
      intro sameName
      refine ⟨_, isNew, Or.inr ⟨_, isNewDomain, ?_⟩⟩
      have isNamed : trim resource.text = trim nameInFolder :=
        (trim_text resource).trans sameName.symm
      rw [newDomain, if_pos isNamed]
      exact Option.some_ne_none _

/-- A folder that is disturbed by the one right before it gives an mmio path, or panics. -/
theorem hasMmio_of_disturbed {before folder : Folder}
    (disturbed : ¬ directory.Undisturbed before folder) {next : FoundTopology}
    (passed : [before, folder].foldlM directory.addFolder .new = .ok next) : next.HasMmio := by
  obtain ⟨first, addedFirst, later⟩ := foldlM_cons_eq_ok passed
  obtain ⟨second, addedSecond, last⟩ := foldlM_cons_eq_ok later
  cases last
  by_contra none
  refine disturbed ⟨?_, ?_⟩
  · rintro socketId read ⟨domainId, resource, readBefore⟩
    rw [directory.addFolder_of_action readBefore] at addedFirst
    rw [directory.addFolder_of_action read] at addedSecond
    cases addedFirst
    cases addedSecond
    exact none (hasMmio_of_socketMmio readBefore)
  · intro socketId read domainId resource asks
    rw [directory.addFolder_of_action asks] at addedFirst
    rw [directory.addFolder_of_action read] at addedSecond
    cases addedFirst
    obtain ⟨nameInFolder, named, given⟩ := hasMmio_of_domainMmio asks addedSecond
    exact ⟨nameInFolder, named, mt given none⟩

theorem undisturbed_self (folder : Folder) : directory.Undisturbed folder folder := by
  constructor
  · rintro socketId read ⟨domainId, resource, other⟩
    rw [read] at other
    cases other
  · intro socketId read domainId resource asks
    rw [AsksFor, read] at asks
    cases asks

/-! #### Domains -/

theorem holds_addDomain {socketId : Nat} {domain : FoundDomain}
    (held : Holds topo socketId domain) (folder : Folder) (other domainId : Nat)
    (resource : Option DomainResource) :
    Holds (directory.addDomain folder topo other domainId resource) socketId domain := by
  obtain ⟨s, isSocket, sameId, isDomain⟩ := held
  refine ⟨directory.extend folder other domainId resource s, ?_, ?_, ?_⟩
  · rw [sockets_addDomain]
    exact List.mem_map_of_mem (FoundTopology.mem_sockets_safeAddSocket.mpr (Or.inl isSocket))
  · rw [id_extend]
    exact sameId
  · exact mem_domains_extend.mpr (Or.inl isDomain)

theorem holds_addBare {socketId : Nat} {domain : FoundDomain}
    (held : Holds topo socketId domain) (folder : Folder) :
    Holds (directory.addBare topo folder) socketId domain := by
  unfold addBare
  split
  · exact holds_addDomain held folder _ _ _
  · exact held

theorem holds_foldl {socketId : Nat} {domain : FoundDomain} (held : Holds topo socketId domain)
    (folders : List Folder) :
    Holds (folders.foldl directory.addBare topo) socketId domain := by
  induction folders generalizing topo with
  | nil => exact held
  | cons folder rest ih => exact ih (holds_addBare held folder)

/-- The first folder that asks for a domain describes it. -/
theorem holds_first {folder : Folder} {socketId domainId : Nat} {resource : DomainResource}
    (asks : directory.AsksFor socketId domainId resource folder) (rest : List Folder) :
    Holds ((folder :: rest).foldl directory.addBare .new) socketId
      (directory.newDomain folder socketId domainId resource) := by
  rw [List.foldl_cons]
  refine holds_foldl ?_ rest
  unfold addBare
  rw [asks]
  exact holds_addDomain_new asks

/-- The folder that comes first among the domain folders describes its domain. -/
theorem Plain.holds_first {folder : Folder} (isFolder : folder ∈ directory.folders)
    {socketId domainId : Nat} {resource : DomainResource}
    (asks : directory.AsksFor socketId domainId resource folder)
    (plain : directory.Plain
      (quietly (List.perm_cons_erase isFolder).symm (List.Perm.refl _)) topo) :
    directory.Described (directory.domainsLast (folder :: directory.folders.erase folder)) topo ∧
      Holds topo socketId (directory.newDomain folder socketId domainId resource) := by
  have isDomain := directory.isDomainFolder_of_action asks
  cases plain with
  | domains _ =>
      refine ⟨described_foldl _, ?_⟩
      change Holds ((directory.domainsLast _).foldl _ _) _ _
      rw [foldl_addBare_domainsLast, List.filter_cons, if_pos isDomain]
      exact Directory.holds_first asks _
  | sockets unmatched _ =>
      rw [isDomainFolder_of_unmatched unmatched folder isFolder] at isDomain
      cases isDomain

/-! #### From the orders to the directory -/

theorem joinPath_injective {basePath component other : Text}
    (same : joinPath basePath component = joinPath basePath other) : component = other := by
  unfold joinPath at same
  split at same
  · exact same
  · split at same
    · exact List.append_cancel_left same
    · exact (List.cons.inj (List.append_cancel_left same)).2

section Independent

variable {cores : List (Nat × Nat)} (buildable : directory.Buildable cores)
  (independent : ∀ listing relisting : Listing directory,
    SameOutcome (directory.generateTopology listing cores)
      (directory.generateTopology relisting cores))

include buildable independent

/-- In a directory that is built the same in all orders, no folder disturbs another. -/
theorem undisturbed_of_sameOutcome {before folder : Folder} (isBefore : before ∈ directory.folders)
    (isFolder : folder ∈ directory.folders) : directory.Undisturbed before folder := by
  by_contra disturbed
  have apart : folder ≠ before := by
    rintro rfl
    exact disturbed (undisturbed_self folder)
  have isDomain : isDomainFolder (directory.path before) = true := by
    by_contra other
    exact disturbed (undisturbed_of_not_domain (Bool.eq_false_iff.mpr other) folder)
  have matched : directory.domainMatched directory.folders = true :=
    List.any_eq_true.mpr ⟨before, isBefore, isDomain⟩
  -- The pair at the start of the first pass, against an order that gives no mmio path.
  let rest := (directory.folders.erase before).erase folder
  have perm : (before :: folder :: rest).Perm directory.folders :=
    ((List.perm_cons_erase ((List.mem_erase_of_ne apart).mpr isFolder)).symm.cons before).trans
      (List.perm_cons_erase isBefore).symm
  let plainly : Listing directory := quietly (List.Perm.refl _) (List.Perm.refl _)
  let disturbing : Listing directory :=
    ⟨before :: folder :: rest, directory.folders, directory.folders, perm, .refl _, .refl _⟩
  obtain ⟨topo, result, plain, generated, same⟩ :=
    buildable.generates plainly (undisturbed_domainsLast directory.folders)
  have outcome := independent disturbing plainly
  rw [generated] at outcome
  cases regenerated : directory.generateTopology disturbing cores with
  | error panic =>
      rw [regenerated] at outcome
      exact outcome
  | ok another =>
      rw [regenerated] at outcome
      obtain ⟨_, marked, scanned, _, sameMarked⟩ := generateTopology_eq_ok regenerated
      rw [scan_of_matched disturbing matched] at scanned
      obtain ⟨middle, passed, later⟩ :=
        foldlM_append_eq_ok (show ([before, folder] ++ rest).foldlM _ _ = _ from scanned)
      have given : marked.HasMmio := invariant_foldlM FoundTopology.HasMmio
        (fun _ _ _ _ => hasMmio_addFolder) (hasMmio_of_disturbed disturbed passed) later
      have reached := (((SameTopology.of_sameButCores sameMarked).trans outcome).trans
        same.symm).hasMmio given
      exact plain.not_hasMmio reached

/-- Two quiet orders of a directory that is built the same in all orders leave the same. -/
theorem plain_same {folders third refolders rethird : List Folder}
    (perm : folders.Perm directory.folders) (thirdPerm : third.Perm directory.folders)
    (reperm : refolders.Perm directory.folders) (rethirdPerm : rethird.Perm directory.folders) :
    ∃ topo other, directory.Plain (quietly perm thirdPerm) topo ∧
      directory.Plain (quietly reperm rethirdPerm) other ∧
      SameTopology (directory.withPsys (quietly perm thirdPerm) topo)
        (directory.withPsys (quietly reperm rethirdPerm) other) := by
  obtain ⟨topo, result, plain, generated, same⟩ :=
    buildable.generates (quietly perm thirdPerm) (undisturbed_domainsLast folders)
  obtain ⟨other, another, replain, regenerated, resame⟩ :=
    buildable.generates (quietly reperm rethirdPerm) (undisturbed_domainsLast refolders)
  have outcome := independent (quietly perm thirdPerm) (quietly reperm rethirdPerm)
  rw [generated, regenerated] at outcome
  have between : SameTopology result another := outcome
  exact ⟨topo, other, plain, replain, (same.trans between).trans resame.symm⟩

theorem agree_of_sameOutcome {folder twin : Folder} (isFolder : folder ∈ directory.folders)
    (isTwin : twin ∈ directory.folders) : directory.Agree folder twin := by
  intro socketId domainId resource another asks asksToo
  obtain ⟨topo, other, plain, replain, same⟩ := plain_same buildable independent
    (List.perm_cons_erase isFolder).symm (List.Perm.refl _)
    (List.perm_cons_erase isTwin).symm (List.Perm.refl _)
  obtain ⟨_, s, isSocket, sameId, isDomain⟩ := plain.holds_first isFolder asks
  obtain ⟨described, t, isOther, twinId, isTwinDomain⟩ := replain.holds_first isTwin asksToo
  obtain ⟨u, isMatched, matchedSocket⟩ := same.sockets s isSocket
  have sameSocket : u = t := List.inj_on_of_nodup_map described.distinct isMatched isOther
    (matchedSocket.id.symm.trans (sameId.trans twinId.symm))
  rw [sameSocket] at matchedSocket
  exact List.inj_on_of_nodup_map (described.distinctDomains t isOther)
    ((matchedSocket.domains _).mp isDomain) isTwinDomain rfl

theorem onePsys_of_sameOutcome {folder twin : Folder} (isFolder : folder ∈ directory.folders)
    (isTwin : twin ∈ directory.folders) (named : isPsys folder = true)
    (twinNamed : isPsys twin = true) : folder = twin := by
  have lastPerm : ∀ {f : Folder}, f ∈ directory.folders →
      (directory.folders.erase f ++ [f]).Perm directory.folders := by
    intro f isF
    exact (List.perm_append_singleton f _).trans (List.perm_cons_erase isF).symm
  have lastFound : ∀ {f : Folder}, isPsys f = true →
      (directory.folders.erase f ++ [f]).reverse.find? isPsys = some f := by
    intro f isPsysF
    rw [List.reverse_append, List.reverse_singleton, List.singleton_append,
      List.find?_cons_of_pos isPsysF]
  obtain ⟨topo, other, plain, replain, same⟩ := plain_same buildable independent
    (List.Perm.refl _) (lastPerm isFolder) (List.Perm.refl _) (lastPerm isTwin)
  have paths := same.psys
  unfold withPsys quietly at paths
  simp only [lastFound named, lastFound twinNamed, plain.noPsys, replain.noPsys, Option.map_some,
    Option.or_none, Option.some.injEq] at paths
  exact List.inj_on_of_nodup_map directory.distinct isFolder isTwin (joinPath_injective paths)

end Independent

/-- The discovery ends the same way for every order of the listings exactly when it ends in a
panic for sure or nothing is left to the order. -/
theorem sameOutcome_iff (directory : Directory) (cores : List (Nat × Nat)) :
    (∀ listing relisting : Listing directory,
      SameOutcome (directory.generateTopology listing cores)
        (directory.generateTopology relisting cores)) ↔
      (directory.Buildable cores → directory.Steady) := by
  constructor
  · intro independent buildable
    exact ⟨fun _ isBefore _ => undisturbed_of_sameOutcome buildable independent isBefore,
      fun _ isFolder _ => agree_of_sameOutcome buildable independent isFolder,
      fun _ isFolder _ => onePsys_of_sameOutcome buildable independent isFolder⟩
  · intro steady listing relisting
    by_cases buildable : directory.Buildable cores
    · exact sameOutcome_of_steady buildable (steady buildable) listing relisting
    · cases generated : directory.generateTopology listing cores with
      | ok result => exact absurd (buildable_of_generated generated) buildable
      | error panic =>
          cases regenerated : directory.generateTopology relisting cores with
          | ok result => exact absurd (buildable_of_generated regenerated) buildable
          | error another => exact trivial

/-! ### A host with mmio folders -/

def mmioPackage : Entry := ⟨.zone .mmio 0 (.package 0), some "262143328850\n".toList⟩

def msrPackage : Entry := ⟨.zone .msr 0 (.package 0), some "262143328850\n".toList⟩

def msrCore : Entry := ⟨.domain .msr 0 0 .cpu, some "262143328850\n".toList⟩

/-- A host with one package that is also there as mmio. -/
def laptop : Directory :=
  Content.directory
    { basePath := "/sys/class/powercap".toList
      entries := [mmioPackage, msrPackage, msrCore]
      distinct := by decide
      fits := by decide }

def mmioFirst : Listing laptop := ⟨_, _, _, .refl _, .refl _, .refl _⟩

def mmioLast : Listing laptop :=
  ⟨[msrPackage.folder, msrCore.folder, mmioPackage.folder], _, _, by decide, .refl _, .refl _⟩

def mmioPaths (topo : FoundTopology) : List (Option Text) :=
  topo.sockets.map fun s => s.sensorData.mmio

/-- The socket has its mmio path only when the mmio folder is listed after the domain folder. -/
theorem not_sameOutcome_of_mmio_folder :
    ¬ ∀ listing relisting : Listing laptop,
      SameOutcome (laptop.generateTopology listing [(0, 0)])
        (laptop.generateTopology relisting [(0, 0)]) := by
  have before : (laptop.generateTopology mmioFirst [(0, 0)]).toOption.map mmioPaths =
      some [none] := by
    decide +kernel
  have after : (laptop.generateTopology mmioLast [(0, 0)]).toOption.map mmioPaths =
      some [some "/sys/class/powercap/intel-rapl-mmio:0/energy_uj".toList] := by
    decide +kernel
  intro independent
  have outcome := independent mmioLast mmioFirst
  cases late : laptop.generateTopology mmioLast [(0, 0)] with
  | error panic =>
      rw [late] at after
      cases after
  | ok topo =>
      cases early : laptop.generateTopology mmioFirst [(0, 0)] with
      | error panic =>
          rw [early] at before
          cases before
      | ok other =>
          rw [late] at after
          rw [early] at before
          rw [late, early] at outcome
          have given : some "/sys/class/powercap/intel-rapl-mmio:0/energy_uj".toList ∈
              mmioPaths topo := by
            rw [Option.some.inj after]
            exact List.mem_singleton_self _
          obtain ⟨s, isSocket, onSocket⟩ := List.mem_map.mp given
          obtain ⟨t, isOther, matched⟩ := SameTopology.sockets outcome s isSocket
          have lacking : t.sensorData.mmio ∈ mmioPaths other := List.mem_map_of_mem isOther
          rw [Option.some.inj before, ← matched.sensorData, onSocket] at lacking
          exact absurd (List.mem_singleton.mp lacking) (Option.some_ne_none _)

end Directory

end ScaphandreFormal.Sensors.Powercap
