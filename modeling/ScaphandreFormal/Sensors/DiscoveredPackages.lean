import ScaphandreFormal.Sensors.PowercapContent

/-!
# The packages that the discovery finds

There should be one socket for each zone that is a package, with the number of the
package as its id.  The discovery makes its sockets from the domain folders where
there is one, else from all zone folders, and takes the number of the zone for the
id of the socket.
-/

namespace ScaphandreFormal.Sensors.Powercap

open Foundation

/-! ## What is there and what is found -/

def Entry.package? (entry : Entry) : Option (Nat × Nat) :=
  match entry.kind with
  | .zone .msr index (.package number) => some (index, number)
  | _ => none

namespace Content

variable {content : Content}

/-- The zones that are packages, each with the number of its package. -/
def packages (content : Content) : List (Nat × Nat) :=
  content.entries.filterMap Entry.package?

/-- The counter of a zone. -/
def energyFile (content : Content) (index : Nat) : Text :=
  content.directory.socketPath index ++ "/energy_uj".toList

/-- The discovery returns one socket for each package, with the number of the package as its id
and the counter of its zone as source file, and no other. -/
def FindsPackages (content : Content) (listing : Listing content.directory)
    (cores : List (Nat × Nat)) : Prop :=
  ∃ topo, content.directory.generateTopology listing cores = .ok topo ∧
    (topo.sockets.map fun s => (s.id, s.sensorData.sourceFile)).Perm
      (content.packages.map fun package => (package.2, content.energyFile package.1))

def Has (content : Content) (kind : Kind) : Prop := ∃ entry ∈ content.entries, entry.kind = kind

def IsPackage (content : Content) (index : Nat) : Prop :=
  ∃ number, (index, number) ∈ content.packages

theorem mem_packages {index number : Nat} :
    (index, number) ∈ content.packages ↔ content.Has (.zone .msr index (.package number)) := by
  unfold packages Has
  rw [List.mem_filterMap]
  refine exists_congr fun entry => and_congr_right fun _ => ?_
  unfold Entry.package?
  constructor
  · intro found
    split at found
    · rename_i same
      cases found
      exact same
    · cases found
  · intro same
    rw [same]

theorem energyFile_injective {index other : Nat}
    (same : content.energyFile index = content.energyFile other) : index = other := by
  unfold energyFile Directory.socketPath at same
  exact toText_injective (List.append_cancel_left (List.append_cancel_right same))

theorem nodup_packages (content : Content) :
    (content.packages.map fun package => (package.2, content.energyFile package.1)).Nodup := by
  have apart : content.packages.Pairwise fun package other => package.1 ≠ other.1 := by
    refine List.Pairwise.filterMap Entry.package? ?_ (List.pairwise_map.mp content.distinct)
    intro entry other differ package found another foundOther same
    apply differ
    unfold Entry.package? at found foundOther
    split at found
    · rename_i kind
      split at foundOther
      · rename_i otherKind
        cases found
        cases foundOther
        rw [kind, otherKind]
        exact Prod.ext rfl (congrArg List.singleton same)
      · cases foundOther
    · cases found
  refine List.pairwise_map.mpr (apart.imp ?_)
  intro package other differ same
  exact differ (energyFile_injective (congrArg Prod.snd same))

theorem named (content : Content) : ∀ folder ∈ content.directory.folders, folder.name ≠ none := by
  intro folder member
  obtain ⟨entry, _, rfl⟩ := List.mem_map.mp member
  exact Option.some_ne_none _

/-- The pairs of id and source file that the discovery leaves. -/
theorem mem_found {topo : FoundTopology} (discovered : content.directory.Discovered topo)
    {id : Nat} {file : Text} :
    (id, file) ∈ (topo.sockets.map fun s => (s.id, s.sensorData.sourceFile)) ↔
      content.directory.Leads id ∧ file = content.energyFile id := by
  rw [← discovered.known, List.mem_map]
  constructor
  · rintro ⟨s, isSocket, same⟩
    cases same
    exact ⟨List.mem_map_of_mem isSocket, discovered.source s isSocket⟩
  · rintro ⟨known, rfl⟩
    obtain ⟨s, isSocket, rfl⟩ := List.mem_map.mp known
    exact ⟨s, isSocket, by rw [discovered.source s isSocket]; rfl⟩

theorem mem_expected {id : Nat} {file : Text} :
    (id, file) ∈ (content.packages.map fun package => (package.2, content.energyFile package.1)) ↔
      ∃ index, (index, id) ∈ content.packages ∧ file = content.energyFile index := by
  rw [List.mem_map]
  constructor
  · rintro ⟨package, isPackage, same⟩
    cases same
    exact ⟨package.1, isPackage, rfl⟩
  · rintro ⟨index, isPackage, rfl⟩
    exact ⟨(index, id), isPackage, rfl⟩

theorem leads_of_findsPackages {listing : Listing content.directory} {cores : List (Nat × Nat)}
    (finds : content.FindsPackages listing cores) :
    content.directory.Buildable cores ∧ (∀ package ∈ content.packages, package.2 = package.1) ∧
      ∀ id, content.directory.Leads id ↔ content.IsPackage id := by
  obtain ⟨topo, generated, perm⟩ := finds
  have buildable := Directory.buildable_of_generated generated
  obtain ⟨result, regenerated, discovered⟩ := buildable.discovers content.named listing
  rw [generated] at regenerated
  cases regenerated
  have pairs : ∀ id file, content.directory.Leads id ∧ file = content.energyFile id ↔
      ∃ index, (index, id) ∈ content.packages ∧ file = content.energyFile index := by
    intro id file
    rw [← mem_found discovered, ← mem_expected, perm.mem_iff]
  have numbered : ∀ index number, (index, number) ∈ content.packages → number = index := by
    intro index number isPackage
    obtain ⟨_, sameFile⟩ := (pairs number (content.energyFile index)).mpr ⟨index, isPackage, rfl⟩
    exact (energyFile_injective sameFile).symm
  refine ⟨buildable, fun package => numbered package.1 package.2, ?_⟩
  intro id
  constructor
  · intro leads
    obtain ⟨index, isPackage, _⟩ := (pairs id _).mp ⟨leads, rfl⟩
    have same := numbered index id isPackage
    exact ⟨id, same ▸ isPackage⟩
  · rintro ⟨number, isPackage⟩
    have same := numbered id number isPackage
    subst same
    exact ((pairs number _).mpr ⟨number, isPackage, rfl⟩).1

theorem findsPackages_of_leads {cores : List (Nat × Nat)}
    (buildable : content.directory.Buildable cores)
    (numbered : ∀ package ∈ content.packages, package.2 = package.1)
    (leads : ∀ id, content.directory.Leads id ↔ content.IsPackage id)
    (listing : Listing content.directory) : content.FindsPackages listing cores := by
  obtain ⟨topo, generated, discovered⟩ := buildable.discovers content.named listing
  refine ⟨topo, generated, ?_⟩
  have distinct : (topo.sockets.map fun s => (s.id, s.sensorData.sourceFile)).Nodup := by
    apply List.Nodup.of_map Prod.fst
    rw [List.map_map]
    exact discovered.distinct
  rw [List.perm_ext_iff_of_nodup distinct content.nodup_packages]
  rintro ⟨id, file⟩
  rw [mem_found discovered, mem_expected, leads, IsPackage]
  constructor
  · rintro ⟨⟨number, isPackage⟩, rfl⟩
    have same : number = id := numbered (id, number) isPackage
    subst same
    exact ⟨number, isPackage, rfl⟩
  · rintro ⟨index, isPackage, rfl⟩
    have same : id = index := numbered (index, id) isPackage
    subst same
    exact ⟨⟨id, isPackage⟩, rfl⟩

/-! ## Which folders lead to sockets -/

/-- The zone has a domain folder. -/
def HasDomain (content : Content) (parent : Nat) : Prop :=
  ∃ index resource, content.Has (.domain .msr parent index resource)

def HasZone (content : Content) (index : Nat) : Prop :=
  ∃ name, content.Has (.zone .msr index name)

section Clear

variable (based : content.basePath ≠ []) (clear : '\n' ∉ content.basePath)

include based clear

theorem isDomainFolder_entry (entry : Entry) :
    isDomainFolder (content.directory.path entry.folder) = true ↔
      ∃ parent index resource, entry.kind = .domain .msr parent index resource := by
  have isMatched := isFolder_domain based entry .msr
  exact isMatched.trans (and_iff_right clear)

theorem isEligible_entry (entry : Entry) :
    content.directory.isEligible entry.folder = true ↔
      ∃ index name, entry.kind = .zone .msr index name := by
  have isMatched : isSocketFolder (content.directory.path entry.folder) = true ↔
      ∃ index name, entry.kind = .zone .msr index name :=
    (isFolder_zone based entry .msr).trans (and_iff_right clear)
  have other : entry.kind.text ++ ['\n'] ≠ "psys".toList := by
    intro same
    have last := congrArg List.getLast? same
    rw [List.getLast?_concat] at last
    exact absurd last (by decide)
  unfold Directory.isEligible
  simp only [Entry.folder, decide_eq_true other, Bool.true_and]
  exact isMatched

theorem domainMatched_entries :
    content.directory.domainMatched content.directory.folders = true ↔
      ∃ parent, content.HasDomain parent := by
  unfold Directory.domainMatched
  rw [List.any_eq_true]
  constructor
  · rintro ⟨folder, isFolder, isDomain⟩
    obtain ⟨entry, isEntry, rfl⟩ := List.mem_map.mp isFolder
    obtain ⟨parent, index, resource, kind⟩ := (isDomainFolder_entry based clear entry).mp isDomain
    exact ⟨parent, index, resource, entry, isEntry, kind⟩
  · rintro ⟨parent, index, resource, entry, isEntry, kind⟩
    exact ⟨entry.folder, List.mem_map_of_mem isEntry,
      (isDomainFolder_entry based clear entry).mpr ⟨parent, index, resource, kind⟩⟩

theorem readable_zone {entry : Entry} {index : Nat} {name : ZoneName}
    (kind : entry.kind = .zone .msr index name) :
    content.directory.action entry.folder = .ok .nothing := by
  rw [action_entry based clear, kind]

section Member

variable {entry : Entry} (member : entry ∈ content.entries)

include member

theorem action_domain {parent index : Nat} {resource : DomainResource}
    (kind : entry.kind = .domain .msr parent index resource) (action : FolderAction) :
    content.directory.action entry.folder = .ok action ↔
      ∃ id domainId, content.cut entry 1 = some id ∧ content.cut entry 2 = some domainId ∧
        action = .domain id domainId (some resource) := by
  have deep : entry.kind.numbers.length = 2 := by
    rw [kind]
    rfl
  rw [action_entry based clear, kind]
  constructor
  · intro read
    obtain ⟨id, first, read⟩ := bind_eq_ok read
    have firstCut := (pieceOf_one based member id).mp first
    obtain ⟨domainId, second⟩ := exists_map_eq_ok.mp ⟨action, read⟩
    rw [second] at read
    cases read
    exact ⟨id, domainId, firstCut, (pieceOf_two based member deep firstCut domainId).mp second, rfl⟩
  · rintro ⟨id, domainId, first, second, rfl⟩
    simp only [(pieceOf_one based member id).mpr first,
      (pieceOf_two based member deep first domainId).mpr second]
    rfl

theorem readable_mmio (mmio : entry.kind.control = .mmio) :
    (∃ action, content.directory.action entry.folder = .ok action) ↔
      ∃ id, content.cut entry 1 = some id := by
  have cuts : (∃ id, pieceOf (content.directory.path entry.folder) 1 = .ok id) ↔
      ∃ id, content.cut entry 1 = some id :=
    exists_congr (pieceOf_one based member)
  rw [action_entry based clear, ← cuts]
  cases kind : entry.kind with
  | zone control index name =>
      rw [kind] at mmio
      cases mmio
      exact exists_map_eq_ok
  | domain control parent index resource =>
      rw [kind] at mmio
      cases mmio
      exact exists_map_eq_ok

theorem belongsTo_entry (id : Nat) :
    content.directory.BelongsTo id entry.folder ↔
      (∃ parent index resource, entry.kind = .domain .msr parent index resource) ∧
        content.cut entry 1 = some id ∧ ∃ domainId, content.cut entry 2 = some domainId := by
  constructor
  · rintro ⟨domainId, resource, read⟩
    obtain ⟨parent, index, another, kind⟩ := (isDomainFolder_entry based clear entry).mp
      (content.directory.isDomainFolder_of_action read)
    obtain ⟨_, _, first, second, same⟩ := (action_domain based clear member kind _).mp read
    cases same
    exact ⟨⟨parent, index, another, kind⟩, first, domainId, second⟩
  · rintro ⟨⟨parent, index, resource, kind⟩, first, domainId, second⟩
    exact ⟨domainId, some resource,
      (action_domain based clear member kind _).mpr ⟨id, domainId, first, second, rfl⟩⟩

theorem leadsTo_entry (id : Nat) :
    content.directory.LeadsTo id entry.folder ↔
      (∃ index name, entry.kind = .zone .msr index name) ∧ content.cut entry 1 = some id := by
  unfold Directory.LeadsTo
  rw [isEligible_entry based clear, pieceOf_one based member]

/-- The numbers that the folder is asked for can be cut from its path. -/
theorem readable_of_cut
    (first : ∃ id, content.cut entry 1 = some id)
    (second : (∃ parent index resource, entry.kind = .domain .msr parent index resource) →
      ∃ domainId, content.cut entry 2 = some domainId) :
    ∃ action, content.directory.action entry.folder = .ok action := by
  cases kind : entry.kind with
  | zone control index name =>
      cases control with
      | msr => exact ⟨_, readable_zone based clear kind⟩
      | mmio => exact (readable_mmio based clear member (by rw [kind]; rfl)).mpr first
  | domain control parent index resource =>
      cases control with
      | mmio => exact (readable_mmio based clear member (by rw [kind]; rfl)).mpr first
      | msr =>
          obtain ⟨id, firstCut⟩ := first
          obtain ⟨domainId, secondCut⟩ := second ⟨parent, index, resource, kind⟩
          exact ⟨_, (action_domain based clear member kind _).mpr
            ⟨id, domainId, firstCut, secondCut, rfl⟩⟩

end Member

/-- The domain folders lead to the sockets where there is one. -/
theorem leads_of_domains (domains : ∃ parent, content.HasDomain parent) (id : Nat) :
    content.directory.Leads id ↔ ∃ entry ∈ content.entries,
      (∃ parent index resource, entry.kind = .domain .msr parent index resource) ∧
        content.cut entry 1 = some id ∧ ∃ domainId, content.cut entry 2 = some domainId := by
  rw [Directory.Leads, if_pos ((domainMatched_entries based clear).mpr domains)]
  constructor
  · rintro ⟨folder, isFolder, belongs⟩
    obtain ⟨entry, isEntry, rfl⟩ := List.mem_map.mp isFolder
    exact ⟨entry, isEntry, (belongsTo_entry based clear isEntry id).mp belongs⟩
  · rintro ⟨entry, isEntry, belongs⟩
    exact ⟨entry.folder, List.mem_map_of_mem isEntry,
      (belongsTo_entry based clear isEntry id).mpr belongs⟩

/-- Else all zone folders do. -/
theorem leads_of_zones (noDomains : ¬ ∃ parent, content.HasDomain parent) (id : Nat) :
    content.directory.Leads id ↔ ∃ entry ∈ content.entries,
      (∃ index name, entry.kind = .zone .msr index name) ∧ content.cut entry 1 = some id := by
  have unmatched := mt (domainMatched_entries based clear).mp noDomains
  rw [Directory.Leads, if_neg unmatched]
  constructor
  · rintro ⟨folder, isFolder, leads⟩
    obtain ⟨entry, isEntry, rfl⟩ := List.mem_map.mp isFolder
    exact ⟨entry, isEntry, (leadsTo_entry based clear isEntry id).mp leads⟩
  · rintro ⟨entry, isEntry, leads⟩
    exact ⟨entry.folder, List.mem_map_of_mem isEntry,
      (leadsTo_entry based clear isEntry id).mpr leads⟩

/-- A directory is buildable when the numbers can be cut and the cores have a place. -/
theorem buildable_of_cut {cores : List (Nat × Nat)}
    (first : ∀ entry ∈ content.entries, ∃ id, content.cut entry 1 = some id)
    (second : ∀ entry ∈ content.entries,
      (∃ parent index resource, entry.kind = .domain .msr parent index resource) →
        ∃ domainId, content.cut entry 2 = some domainId)
    (room : cores = [] ∨ content.packages ≠ []) : content.directory.Buildable cores := by
  refine ⟨based, ?_, ?_, ?_⟩
  · intro folder isFolder
    obtain ⟨entry, isEntry, rfl⟩ := List.mem_map.mp isFolder
    exact readable_of_cut based clear isEntry (first entry isEntry) (second entry isEntry)
  · intro _ folder isFolder _
    obtain ⟨entry, isEntry, rfl⟩ := List.mem_map.mp isFolder
    obtain ⟨id, cutFirst⟩ := first entry isEntry
    exact ⟨id, (pieceOf_one based isEntry id).mpr cutFirst⟩
  · refine room.imp_right fun some => Or.inr ?_
    obtain ⟨⟨index, number⟩, isPackage⟩ := List.exists_mem_of_ne_nil _ some
    obtain ⟨entry, isEntry, kind⟩ := mem_packages.mp isPackage
    exact ⟨entry.folder, List.mem_map_of_mem isEntry,
      (isEligible_entry based clear entry).mpr ⟨index, _, kind⟩⟩

end Clear

/-! ### A line feed in the base path -/

theorem leads_of_lineFeed (based : content.basePath ≠ []) (lineFeed : '\n' ∈ content.basePath)
    (id : Nat) : ¬ content.directory.Leads id := by
  unfold Directory.Leads
  split
  · rintro ⟨folder, isFolder, domainId, resource, read⟩
    obtain ⟨entry, _, rfl⟩ := List.mem_map.mp isFolder
    rw [action_of_lineFeed based lineFeed] at read
    cases read
  · rintro ⟨folder, isFolder, eligible, _⟩
    obtain ⟨entry, _, rfl⟩ := List.mem_map.mp isFolder
    simp only [Directory.isEligible, Entry.folder, Bool.and_eq_true] at eligible
    exact ((isFolder_path based entry _ _).mp eligible.2).1 lineFeed

theorem buildable_of_lineFeed (based : content.basePath ≠ [])
    (lineFeed : '\n' ∈ content.basePath) : content.directory.Buildable [] := by
  refine ⟨based, ?_, ?_, Or.inl rfl⟩
  · intro folder isFolder
    obtain ⟨entry, _, rfl⟩ := List.mem_map.mp isFolder
    exact ⟨_, action_of_lineFeed based lineFeed entry⟩
  · intro _ folder isFolder eligible
    obtain ⟨entry, _, rfl⟩ := List.mem_map.mp isFolder
    simp only [Directory.isEligible, Entry.folder, Bool.and_eq_true] at eligible
    exact absurd lineFeed ((isFolder_path based entry _ _).mp eligible.2).1

/-! ### A plain base path -/

theorem cut_of_plain (plain : ':' ∉ content.basePath) (entry : Entry) (position : Nat) :
    content.cut entry position = entry.kind.numbers[position - 1]? := if_neg plain

theorem leads_plain_of_domains (based : content.basePath ≠ []) (clear : '\n' ∉ content.basePath)
    (plain : ':' ∉ content.basePath) (domains : ∃ parent, content.HasDomain parent) (id : Nat) :
    content.directory.Leads id ↔ content.HasDomain id := by
  rw [leads_of_domains based clear domains]
  constructor
  · rintro ⟨entry, isEntry, ⟨parent, index, resource, kind⟩, first, _⟩
    rw [cut_of_plain plain, kind] at first
    cases first
    exact ⟨index, resource, entry, isEntry, kind⟩
  · rintro ⟨index, resource, entry, isEntry, kind⟩
    refine ⟨entry, isEntry, ⟨id, index, resource, kind⟩, ?_, index, ?_⟩
    · rw [cut_of_plain plain, kind]
      rfl
    · rw [cut_of_plain plain, kind]
      rfl

theorem leads_plain_of_zones (based : content.basePath ≠ []) (clear : '\n' ∉ content.basePath)
    (plain : ':' ∉ content.basePath) (noDomains : ¬ ∃ parent, content.HasDomain parent)
    (id : Nat) : content.directory.Leads id ↔ content.HasZone id := by
  rw [leads_of_zones based clear noDomains]
  constructor
  · rintro ⟨entry, isEntry, ⟨index, name, kind⟩, first⟩
    rw [cut_of_plain plain, kind] at first
    cases first
    exact ⟨name, entry, isEntry, kind⟩
  · rintro ⟨name, entry, isEntry, kind⟩
    refine ⟨entry, isEntry, ⟨id, name, kind⟩, ?_⟩
    rw [cut_of_plain plain, kind]
    rfl

theorem buildable_of_plain {cores : List (Nat × Nat)} (based : content.basePath ≠ [])
    (clear : '\n' ∉ content.basePath) (plain : ':' ∉ content.basePath)
    (room : cores = [] ∨ content.packages ≠ []) : content.directory.Buildable cores := by
  refine buildable_of_cut based clear ?_ ?_ room
  · intro entry _
    rw [cut_of_plain plain]
    cases entry.kind with
    | zone control index name => exact ⟨index, rfl⟩
    | domain control parent index resource => exact ⟨parent, rfl⟩
  · rintro entry _ ⟨parent, index, resource, kind⟩
    rw [cut_of_plain plain, kind]
    exact ⟨index, rfl⟩

theorem zone_unique {control : Control} {index : Nat} {name other : ZoneName}
    (has : content.Has (.zone control index name))
    (hasOther : content.Has (.zone control index other)) : name = other := by
  obtain ⟨entry, isEntry, kind⟩ := has
  obtain ⟨twin, isTwin, twinKind⟩ := hasOther
  have same : entry = twin := by
    apply List.inj_on_of_nodup_map content.distinct isEntry isTwin
    rw [kind, twinKind]
    rfl
  subst same
  rw [kind] at twinKind
  cases twinKind
  rfl

/-- Where there is no psys among the zones, all of them are packages. -/
theorem isPackage_iff_hasZone (noPsys : ∀ index, ¬ content.Has (.zone .msr index .psys))
    (index : Nat) : content.HasZone index ↔ content.IsPackage index := by
  constructor
  · rintro ⟨name, has⟩
    cases name with
    | package number => exact ⟨number, mem_packages.mpr has⟩
    | psys => exact absurd has (noPsys index)
  · rintro ⟨number, isPackage⟩
    exact ⟨_, mem_packages.mp isPackage⟩

/-! ### Colons in the base path -/

/-- There is a zone or a domain that is not mmio. -/
def HasMsr (content : Content) : Prop := ∃ entry ∈ content.entries, entry.kind.control = .msr

theorem cut_of_colon (colon : ':' ∈ content.basePath) (entry : Entry) (position : Nat) :
    content.cut entry position = content.baseNumber position := if_pos colon

/-- All folders lead to the one socket that the base path names. -/
theorem leads_of_colon (based : content.basePath ≠ []) (clear : '\n' ∉ content.basePath)
    (colon : ':' ∈ content.basePath) {id : Nat} (first : content.baseNumber 1 = some id)
    (second : (∃ parent, content.HasDomain parent) →
      ∃ domainId, content.baseNumber 2 = some domainId) (index : Nat) :
    content.directory.Leads index ↔ index = id ∧ content.HasMsr := by
  by_cases domains : ∃ parent, content.HasDomain parent
  · rw [leads_of_domains based clear domains]
    constructor
    · rintro ⟨entry, isEntry, ⟨parent, index, resource, kind⟩, cutFirst, _⟩
      rw [cut_of_colon colon, first] at cutFirst
      cases cutFirst
      exact ⟨rfl, entry, isEntry, by rw [kind]; rfl⟩
    · rintro ⟨rfl, _⟩
      obtain ⟨domainId, cutSecond⟩ := second domains
      obtain ⟨parent, sub, resource, entry, isEntry, kind⟩ := domains
      refine ⟨entry, isEntry, ⟨parent, sub, resource, kind⟩, ?_, domainId, ?_⟩
      · rw [cut_of_colon colon, first]
      · rw [cut_of_colon colon, cutSecond]
  · rw [leads_of_zones based clear domains]
    constructor
    · rintro ⟨entry, isEntry, ⟨_, name, kind⟩, cutFirst⟩
      rw [cut_of_colon colon, first] at cutFirst
      cases cutFirst
      exact ⟨rfl, entry, isEntry, by rw [kind]; rfl⟩
    · rintro ⟨rfl, entry, isEntry, isMsr⟩
      refine ⟨entry, isEntry, ?_, by rw [cut_of_colon colon, first]⟩
      cases kind : entry.kind with
      | zone control sub name =>
          rw [kind] at isMsr
          cases isMsr
          exact ⟨sub, name, rfl⟩
      | domain control parent sub resource =>
          rw [kind] at isMsr
          cases isMsr
          exact absurd ⟨parent, sub, resource, entry, isEntry, kind⟩ domains

theorem buildable_of_colon {cores : List (Nat × Nat)} (based : content.basePath ≠ [])
    (clear : '\n' ∉ content.basePath) (colon : ':' ∈ content.basePath) {id : Nat}
    (first : content.baseNumber 1 = some id)
    (second : (∃ parent, content.HasDomain parent) →
      ∃ domainId, content.baseNumber 2 = some domainId)
    (room : cores = [] ∨ content.packages ≠ []) : content.directory.Buildable cores := by
  refine buildable_of_cut based clear ?_ ?_ room
  · intro entry _
    exact ⟨id, by rw [cut_of_colon colon, first]⟩
  · rintro entry isEntry ⟨parent, index, resource, kind⟩
    rw [cut_of_colon colon]
    exact second ⟨parent, index, resource, entry, isEntry, kind⟩

/-- What a buildable directory with colons in its base path must have there. -/
theorem baseNumber_of_buildable {cores : List (Nat × Nat)} (clear : '\n' ∉ content.basePath)
    (colon : ':' ∈ content.basePath) (buildable : content.directory.Buildable cores)
    (nonempty : content.entries ≠ []) :
    (∃ id, content.baseNumber 1 = some id) ∧ ((∃ parent, content.HasDomain parent) →
      ∃ domainId, content.baseNumber 2 = some domainId) := by
  have based := buildable.based
  have readable : ∀ entry ∈ content.entries,
      ∃ action, content.directory.action entry.folder = .ok action :=
    fun entry isEntry => buildable.readable entry.folder (List.mem_map_of_mem isEntry)
  have ofDomains : (∃ parent, content.HasDomain parent) →
      (∃ id, content.baseNumber 1 = some id) ∧
        ∃ domainId, content.baseNumber 2 = some domainId := by
    rintro ⟨parent, index, resource, entry, isEntry, kind⟩
    obtain ⟨action, read⟩ := readable entry isEntry
    obtain ⟨id, domainId, first, second, _⟩ :=
      (action_domain based clear isEntry kind action).mp read
    rw [cut_of_colon colon] at first second
    exact ⟨⟨id, first⟩, domainId, second⟩
  refine ⟨?_, fun domains => (ofDomains domains).2⟩
  by_cases domains : ∃ parent, content.HasDomain parent
  · exact (ofDomains domains).1
  · obtain ⟨entry, isEntry⟩ := List.exists_mem_of_ne_nil _ nonempty
    cases isControl : entry.kind.control with
    | mmio =>
        obtain ⟨id, first⟩ := (readable_mmio based clear isEntry isControl).mp
          (readable entry isEntry)
        rw [cut_of_colon colon] at first
        exact ⟨id, first⟩
    | msr =>
        cases kind : entry.kind with
        | domain control parent index resource =>
            rw [kind] at isControl
            cases isControl
            exact absurd ⟨parent, index, resource, entry, isEntry, kind⟩ domains
        | zone control index name =>
            rw [kind] at isControl
            cases isControl
            have unmatched := Bool.eq_false_iff.mpr
              (mt (domainMatched_entries based clear).mp domains)
            obtain ⟨id, first⟩ := buildable.leading unmatched entry.folder
              (List.mem_map_of_mem isEntry)
              ((isEligible_entry based clear entry).mpr ⟨index, name, kind⟩)
            rw [pieceOf_one based isEntry, cut_of_colon colon] at first
            exact ⟨id, first⟩

/-! ### The condition -/

/-- The number of each package is that of its zone, and the folders that sockets are made from
are those of the packages.  Which folders these are depends on the base path: the domain folders
or else all zones where it is plain, none with a line feed, and with colons any folder, which
then leads to the one number that stands in the base path. -/
structure Suitable (content : Content) (cores : List (Nat × Nat)) : Prop where
  based : content.basePath ≠ []
  room : cores = [] ∨ content.packages ≠ []
  numbered : ∀ package ∈ content.packages, package.2 = package.1
  domains : '\n' ∉ content.basePath → ':' ∉ content.basePath →
    (∃ parent, content.HasDomain parent) →
      ∀ index, content.IsPackage index ↔ content.HasDomain index
  zones : '\n' ∉ content.basePath → ':' ∉ content.basePath →
    (¬ ∃ parent, content.HasDomain parent) → ∀ index, ¬ content.Has (.zone .msr index .psys)
  colons : '\n' ∉ content.basePath → ':' ∈ content.basePath → content.entries = [] ∨
    ∃ id, content.baseNumber 1 = some id ∧
      ((∃ parent, content.HasDomain parent) →
        ∃ domainId, content.baseNumber 2 = some domainId) ∧
      ∀ index, content.IsPackage index ↔ index = id ∧ content.HasMsr
  lineFeed : '\n' ∈ content.basePath → content.packages = []

theorem packages_eq_nil (none : ∀ index, ¬ content.IsPackage index) : content.packages = [] := by
  by_contra nonempty
  obtain ⟨⟨index, number⟩, isPackage⟩ := List.exists_mem_of_ne_nil _ nonempty
  exact none index ⟨number, isPackage⟩

theorem not_isPackage (none : content.packages = []) (index : Nat) :
    ¬ content.IsPackage index := by
  rintro ⟨number, isPackage⟩
  rw [none] at isPackage
  exact absurd isPackage List.not_mem_nil

theorem suitable_of_leads {cores : List (Nat × Nat)}
    (buildable : content.directory.Buildable cores)
    (numbered : ∀ package ∈ content.packages, package.2 = package.1)
    (leads : ∀ id, content.directory.Leads id ↔ content.IsPackage id) :
    content.Suitable cores := by
  have based := buildable.based
  refine ⟨based, ?_, numbered, ?_, ?_, ?_, ?_⟩
  · refine buildable.room.imp_right fun able => ?_
    obtain ⟨id, isLed⟩ := buildable.leads able
    obtain ⟨number, isPackage⟩ := (leads id).mp isLed
    exact List.ne_nil_of_mem isPackage
  · intro clear plain domains index
    rw [← leads, leads_plain_of_domains based clear plain domains]
  · intro clear plain noDomains index has
    have isLed := (leads_plain_of_zones based clear plain noDomains index).mpr ⟨_, has⟩
    obtain ⟨number, isPackage⟩ := (leads index).mp isLed
    cases zone_unique has (mem_packages.mp isPackage)
  · intro clear colon
    by_cases empty : content.entries = []
    · exact Or.inl empty
    · obtain ⟨⟨id, first⟩, second⟩ := baseNumber_of_buildable clear colon buildable empty
      refine Or.inr ⟨id, first, second, fun index => ?_⟩
      rw [← leads, leads_of_colon based clear colon first second]
  · intro lineFeed
    apply packages_eq_nil
    intro index isPackage
    exact leads_of_lineFeed based lineFeed index ((leads index).mpr isPackage)

theorem leads_of_suitable {cores : List (Nat × Nat)} (suitable : content.Suitable cores) :
    content.directory.Buildable cores ∧
      ∀ id, content.directory.Leads id ↔ content.IsPackage id := by
  have based := suitable.based
  by_cases lineFeed : '\n' ∈ content.basePath
  · have none := suitable.lineFeed lineFeed
    have noCores := suitable.room.resolve_right (not_not.mpr none)
    subst noCores
    refine ⟨buildable_of_lineFeed based lineFeed, fun id => ?_⟩
    exact iff_of_false (leads_of_lineFeed based lineFeed id) (not_isPackage none id)
  by_cases colon : ':' ∈ content.basePath
  · rcases suitable.colons lineFeed colon with empty | ⟨id, first, second, packages⟩
    · have noEntry : ∀ entry, entry ∉ content.entries := by
        intro entry
        rw [empty]
        exact List.not_mem_nil
      have noDomains : ¬ ∃ parent, content.HasDomain parent := by
        rintro ⟨_, _, _, entry, isEntry, _⟩
        exact noEntry entry isEntry
      refine ⟨buildable_of_cut based lineFeed ?_ ?_ suitable.room, fun index => ?_⟩
      · exact fun entry isEntry => absurd isEntry (noEntry entry)
      · exact fun entry isEntry => absurd isEntry (noEntry entry)
      · rw [leads_of_zones based lineFeed noDomains]
        constructor
        · rintro ⟨entry, isEntry, _⟩
          exact absurd isEntry (noEntry entry)
        · rintro ⟨number, isPackage⟩
          obtain ⟨entry, isEntry, _⟩ := mem_packages.mp isPackage
          exact absurd isEntry (noEntry entry)
    · refine ⟨buildable_of_colon based lineFeed colon first second suitable.room, fun index => ?_⟩
      rw [leads_of_colon based lineFeed colon first second, packages]
  · refine ⟨buildable_of_plain based lineFeed colon suitable.room, fun index => ?_⟩
    by_cases domains : ∃ parent, content.HasDomain parent
    · rw [leads_plain_of_domains based lineFeed colon domains,
        suitable.domains lineFeed colon domains]
    · rw [leads_plain_of_zones based lineFeed colon domains,
        isPackage_iff_hasZone (suitable.zones lineFeed colon domains)]

/-- The discovery finds exactly the packages when the directory is suitable. -/
theorem findsPackages_iff (content : Content) (listing : Listing content.directory)
    (cores : List (Nat × Nat)) :
    content.FindsPackages listing cores ↔ content.Suitable cores := by
  constructor
  · intro finds
    obtain ⟨buildable, numbered, leads⟩ := leads_of_findsPackages finds
    exact suitable_of_leads buildable numbered leads
  · intro suitable
    obtain ⟨buildable, leads⟩ := leads_of_suitable suitable
    exact findsPackages_of_leads buildable suitable.numbered leads listing

/-- A host with psys whose package has a domain folder. -/
def desktop : Content where
  basePath := "/sys/class/powercap".toList
  entries :=
    [⟨.zone .msr 0 (.package 0), none⟩, ⟨.domain .msr 0 0 .cpu, none⟩, ⟨.zone .msr 1 .psys, none⟩]
  distinct := by decide
  fits := by decide

example : (desktop.directory.generateTopology ⟨_, _, _, .refl _, .refl _, .refl _⟩
    [(0, 0)]).toOption.map FoundTopology.socketIds = some [0] := by
  decide +kernel

/-! ### A host without domain folders -/

/-- A host with one package and psys, neither with domain folders. -/
def tablet : Content where
  basePath := "/sys/class/powercap".toList
  entries :=
    [⟨.zone .msr 0 (.package 0), some "262143328850\n".toList⟩,
      ⟨.zone .msr 1 .psys, some "262143328850\n".toList⟩]
  distinct := by decide
  fits := by decide

def tabletListing : Listing tablet.directory :=
  ⟨_, _, _, .refl _, .refl _, .refl _⟩

/-- Psys is taken for a package. -/
theorem not_findsPackages_of_psys : ¬ tablet.FindsPackages tabletListing [(0, 0)] := by
  have found : (tablet.directory.generateTopology tabletListing [(0, 0)]).toOption.map
      FoundTopology.socketIds = some [0, 1] := by
    decide +kernel
  rintro ⟨topo, generated, perm⟩
  rw [generated] at found
  have ids : topo.socketIds = [0, 1] := Option.some.inj found
  have sameLength := perm.length_eq
  rw [List.length_map, ← List.length_map FoundSocket.id] at sameLength
  change topo.socketIds.length = _ at sameLength
  rw [ids] at sameLength
  exact absurd sameLength (by decide)

end Content

end ScaphandreFormal.Sensors.Powercap
