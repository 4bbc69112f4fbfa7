import ScaphandreFormal.Foundation.Fallible
import ScaphandreFormal.Foundation.Registry
import ScaphandreFormal.Sensors.Discovery

/-!
# What the passes of the discovery leave

What a folder asks for can be read off its path and its name alone.  Forgetting
the mmio paths, the first pass is a pure fold over the domain folders, and what
that fold leaves is described by which folders it met: a socket for each socket id,
and in it a domain for each domain id, made from the first folder that has it.
-/

namespace ScaphandreFormal.Sensors.Powercap

open Foundation

/-! ## What a folder asks for -/

inductive FolderAction where
  | domain (socketId domainId : Nat) (resource : Option DomainResource)
  | socketMmio (socketId : Nat)
  | domainMmio (socketId : Nat)
  | nothing
  deriving DecidableEq, Repr

namespace Directory

variable (directory : Directory)

/-- The part of the first loop that does not look at the topology. -/
def action (folder : Folder) : Except DiscoveryPanic FolderAction :=
  let folderName := directory.path folder
  if isDomainFolder folderName then do
    let socketId ← pieceOf folderName 1
    let domainId ← pieceOf folderName 2
    match folder.name with
    | some domainName => do
        let resource ← DomainResource.parse (trim domainName)
        return .domain socketId domainId (some resource)
    | none => return .domain socketId domainId none
  else if isSocketMmioFolder folderName then do
    let socketId ← pieceOf folderName 1
    return .socketMmio socketId
  else if isDomainMmioFolder folderName then do
    let socketId ← pieceOf folderName 1
    return .domainMmio socketId
  else return .nothing

/-- What a domain folder adds. -/
def addDomain (folder : Folder) (topo : FoundTopology) (socketId domainId : Nat)
    (resource : Option DomainResource) : FoundTopology :=
  let withSocket := topo.safeAddSocket (directory.newSocket socketId)
  match resource with
  | some resource => withSocket.safeAddDomainToSocket socketId
      (directory.newDomain folder socketId domainId resource)
  | none => withSocket

/-- What a socket mmio folder adds. -/
def markSocket (topo : FoundTopology) (socketId : Nat) : FoundTopology :=
  let mmioFile := directory.basePath ++ "/intel-rapl-mmio:".toList ++ toText socketId ++
    "/energy_uj".toList
  { topo with
    sockets := topo.sockets.map fun s =>
      if socketId = s.id then { s with sensorData := { s.sensorData with mmio := some mmioFile } }
      else s }

/-- What a domain mmio folder does to one socket. -/
def markDomainsOf (folder : Folder) (socketId : Nat) (s : FoundSocket) :
    Except DiscoveryPanic FoundSocket :=
  if socketId = s.id then do
    let domains ← s.domains.mapM (directory.attachToDomain folder)
    return { s with domains := domains }
  else return s

def markDomains (folder : Folder) (topo : FoundTopology) (socketId : Nat) :
    Except DiscoveryPanic FoundTopology := do
  let sockets ← topo.sockets.mapM (directory.markDomainsOf folder socketId)
  return { topo with sockets := sockets }

/-- The rest of the first loop. -/
def perform (folder : Folder) (topo : FoundTopology) :
    FolderAction → Except DiscoveryPanic FoundTopology
  | .domain socketId domainId resource =>
      .ok (directory.addDomain folder topo socketId domainId resource)
  | .socketMmio socketId => .ok (directory.markSocket topo socketId)
  | .domainMmio socketId => directory.markDomains folder topo socketId
  | .nothing => .ok topo

theorem addFolder_eq (topo : FoundTopology) (folder : Folder) :
    directory.addFolder topo folder =
      (directory.action folder).bind (directory.perform folder topo) := by
  unfold addFolder action
  simp only
  split
  · unfold addDomainFolder
    cases pieceOf (directory.path folder) 1 with
    | error panic => rfl
    | ok socketId =>
        cases pieceOf (directory.path folder) 2 with
        | error panic => rfl
        | ok domainId =>
            cases folder.name with
            | none => rfl
            | some domainName =>
                change (DomainResource.parse (trim domainName)).bind _ =
                  ((DomainResource.parse (trim domainName)).bind _).bind _
                cases DomainResource.parse (trim domainName) with
                | error panic => rfl
                | ok resource => rfl
  · split
    · unfold attachSocketMmio
      cases pieceOf (directory.path folder) 1 with
      | error panic => rfl
      | ok socketId => rfl
    · split
      · unfold attachDomainMmio
        cases pieceOf (directory.path folder) 1 with
        | error panic => rfl
        | ok socketId => rfl
      · rfl

/-- A folder is met without panic when what it asks for can be read and done. -/
theorem addFolder_eq_ok {topo next : FoundTopology} {folder : Folder}
    (added : directory.addFolder topo folder = .ok next) :
    ∃ action, directory.action folder = .ok action ∧
      directory.perform folder topo action = .ok next := by
  rw [addFolder_eq] at added
  exact bind_eq_ok added

theorem addFolder_of_action {folder : Folder} {action : FolderAction}
    (read : directory.action folder = .ok action) (topo : FoundTopology) :
    directory.addFolder topo folder = directory.perform folder topo action := by
  rw [addFolder_eq, read]
  rfl

/-- The folders that `re_domain` matches ask for a domain, when they can be read. -/
theorem action_of_isDomainFolder {folder : Folder} {action : FolderAction}
    (read : directory.action folder = .ok action)
    (isDomain : isDomainFolder (directory.path folder) = true) :
    ∃ socketId domainId resource, action = .domain socketId domainId resource := by
  unfold Directory.action at read
  simp only [isDomain, if_true] at read
  obtain ⟨socketId, _, read⟩ := bind_eq_ok read
  obtain ⟨domainId, _, read⟩ := bind_eq_ok read
  cases named : folder.name with
  | none =>
      rw [named] at read
      cases read
      exact ⟨socketId, domainId, none, rfl⟩
  | some domainName =>
      rw [named] at read
      obtain ⟨resource, _, read⟩ := bind_eq_ok read
      cases read
      exact ⟨socketId, domainId, some resource, rfl⟩

theorem isDomainFolder_of_action {folder : Folder} {socketId domainId : Nat}
    {resource : Option DomainResource}
    (read : directory.action folder = .ok (.domain socketId domainId resource)) :
    isDomainFolder (directory.path folder) = true := by
  unfold Directory.action at read
  simp only at read
  split at read
  · rename_i isDomain
    exact isDomain
  · split at read
    · obtain ⟨_, _, read⟩ := bind_eq_ok read
      cases read
    · split at read
      · obtain ⟨_, _, read⟩ := bind_eq_ok read
        cases read
      · cases read

end Directory

/-! ## Forgetting the mmio paths -/

def SensorData.bare (data : SensorData) : SensorData := { data with mmio := none }

def FoundDomain.bare (domain : FoundDomain) : FoundDomain :=
  { domain with sensorData := domain.sensorData.bare }

def FoundSocket.bare (socket : FoundSocket) : FoundSocket :=
  { socket with
    domains := socket.domains.map FoundDomain.bare
    sensorData := socket.sensorData.bare }

def FoundTopology.bare (topo : FoundTopology) : FoundTopology :=
  { topo with sockets := topo.sockets.map FoundSocket.bare }

theorem bare_safeAddSocket (topo : FoundTopology) {socket : FoundSocket}
    (isBare : socket.bare = socket) :
    (topo.safeAddSocket socket).bare = topo.bare.safeAddSocket socket := by
  have present : (topo.bare.sockets.any fun s => s.id = socket.id) =
      topo.sockets.any fun s => s.id = socket.id := by
    simp only [FoundTopology.bare, List.any_map]
    rfl
  unfold FoundTopology.safeAddSocket
  rw [present]
  split
  · rfl
  · simp [FoundTopology.bare, isBare]

theorem bare_safeAddDomain {domain : FoundDomain} (isBare : domain.bare = domain)
    (socket : FoundSocket) :
    (FoundTopology.safeAddDomain domain socket).bare =
      FoundTopology.safeAddDomain domain socket.bare := by
  have present : (socket.bare.domains.any fun d => d.id = domain.id) =
      socket.domains.any fun d => d.id = domain.id := by
    simp only [FoundSocket.bare, List.any_map]
    rfl
  unfold FoundTopology.safeAddDomain
  rw [present]
  split
  · rfl
  · simp [FoundSocket.bare, isBare]

theorem bare_buildDomainsNames (topo : FoundTopology) :
    topo.buildDomainsNames.bare = topo.bare.buildDomainsNames := by
  have names : (topo.bare.sockets.flatMap fun s => s.domains.map FoundDomain.name) =
      topo.sockets.flatMap fun s => s.domains.map FoundDomain.name := by
    simp only [FoundTopology.bare, List.flatMap_map, FoundSocket.bare, List.map_map]
    rfl
  unfold FoundTopology.buildDomainsNames
  rw [names]
  rfl

theorem bare_safeAddDomainToSocket (topo : FoundTopology) (socketId : Nat) {domain : FoundDomain}
    (isBare : domain.bare = domain) :
    (topo.safeAddDomainToSocket socketId domain).bare =
      topo.bare.safeAddDomainToSocket socketId domain := by
  unfold FoundTopology.safeAddDomainToSocket
  rw [bare_buildDomainsNames]
  congr 1
  simp only [FoundTopology.bare, List.map_map]
  congr 1
  apply List.map_congr_left
  intro s _
  change FoundSocket.bare (if s.id = socketId then _ else _) =
    if s.id = socketId then _ else _
  split
  · exact bare_safeAddDomain isBare s
  · rfl

theorem Directory.bare_addDomain (directory : Directory) (folder : Folder) (topo : FoundTopology)
    (socketId domainId : Nat) (resource : Option DomainResource) :
    (directory.addDomain folder topo socketId domainId resource).bare =
      directory.addDomain folder topo.bare socketId domainId resource := by
  have withSocket := bare_safeAddSocket topo
    (show (directory.newSocket socketId).bare = directory.newSocket socketId from rfl)
  cases resource with
  | none => exact withSocket
  | some resource =>
      change (FoundTopology.safeAddDomainToSocket _ _ _).bare = _
      rw [bare_safeAddDomainToSocket _ _ rfl, withSocket]
      rfl

namespace Directory

variable (directory : Directory)

theorem bare_markSocket (topo : FoundTopology) (socketId : Nat) :
    (directory.markSocket topo socketId).bare = topo.bare := by
  unfold markSocket FoundTopology.bare
  simp only [List.map_map]
  congr 1
  apply List.map_congr_left
  intro s _
  change FoundSocket.bare (if socketId = s.id then _ else _) = s.bare
  split <;> rfl

theorem bare_attachToDomain {folder : Folder} {domain next : FoundDomain}
    (attached : directory.attachToDomain folder domain = .ok next) : next.bare = domain.bare := by
  unfold attachToDomain at attached
  split at attached
  · cases attached
    split <;> rfl
  · cases attached

/-- What a step does not change of any item, a map does not change of the list. -/
theorem map_eq_of_forall₂ {Item Value Image : Type} {step : Item → Except DiscoveryPanic Value}
    {before : Item → Image} {after : Value → Image} {items : List Item} {values : List Value}
    (each : ∀ item value, step item = .ok value → after value = before item)
    (pairs : List.Forall₂ (fun item value => step item = .ok value) items values) :
    values.map after = items.map before := by
  induction pairs with
  | nil => rfl
  | cons here _ ih => rw [List.map_cons, List.map_cons, each _ _ here, ih]

theorem bare_markDomainsOf {folder : Folder} {socketId : Nat} {s next : FoundSocket}
    (marked : directory.markDomainsOf folder socketId s = .ok next) : next.bare = s.bare := by
  unfold markDomainsOf at marked
  split at marked
  · obtain ⟨domains, mapped, marked⟩ := bind_eq_ok marked
    cases marked
    have kept := map_eq_of_forall₂ (fun _ _ => directory.bare_attachToDomain)
      (forall₂_of_mapM_eq_ok mapped)
    unfold FoundSocket.bare
    rw [kept]
  · cases marked
    rfl

theorem bare_markDomains {folder : Folder} {topo next : FoundTopology} {socketId : Nat}
    (marked : directory.markDomains folder topo socketId = .ok next) : next.bare = topo.bare := by
  obtain ⟨sockets, mapped, marked⟩ := bind_eq_ok marked
  cases marked
  have kept := map_eq_of_forall₂ (fun _ _ => directory.bare_markDomainsOf)
    (forall₂_of_mapM_eq_ok mapped)
  unfold FoundTopology.bare
  rw [kept]

/-- What is left of the first loop without mmio paths. -/
def addBare (topo : FoundTopology) (folder : Folder) : FoundTopology :=
  match directory.action folder with
  | .ok (.domain socketId domainId resource) =>
      directory.addDomain folder topo socketId domainId resource
  | _ => topo

theorem bare_perform {folder : Folder} {topo next : FoundTopology} {action : FolderAction}
    (read : directory.action folder = .ok action)
    (performed : directory.perform folder topo action = .ok next) :
    next.bare = directory.addBare topo.bare folder := by
  unfold addBare
  rw [read]
  cases action with
  | domain socketId domainId resource =>
      cases performed
      exact directory.bare_addDomain folder topo socketId domainId resource
  | socketMmio socketId =>
      cases performed
      exact directory.bare_markSocket topo socketId
  | domainMmio socketId => exact directory.bare_markDomains performed
  | nothing =>
      cases performed
      rfl

/-- Whatever the order, the mmio folders change nothing but mmio paths. -/
theorem bare_foldlM {folders : List Folder} {topo result : FoundTopology}
    (passed : folders.foldlM directory.addFolder topo = .ok result) :
    result.bare = folders.foldl directory.addBare topo.bare := by
  induction folders generalizing topo with
  | nil =>
      cases passed
      rfl
  | cons folder rest ih =>
      obtain ⟨next, added, later⟩ := foldlM_cons_eq_ok passed
      obtain ⟨action, read, performed⟩ := directory.addFolder_eq_ok added
      rw [ih later, directory.bare_perform read performed]
      rfl

end Directory

/-! ## The sockets and domains that a pass leaves -/

namespace FoundTopology

def socketIds (topo : FoundTopology) : List Nat := topo.sockets.map FoundSocket.id

/-- The sockets are a registry of their ids. -/
theorem sockets_safeAddSocket (topo : FoundTopology) (socket : FoundSocket) :
    (topo.safeAddSocket socket).sockets = register FoundSocket.id topo.sockets socket := by
  unfold safeAddSocket register
  split <;> rfl

/-- The domains of a socket are a registry of their ids. -/
theorem safeAddDomain_eq (domain : FoundDomain) (s : FoundSocket) :
    safeAddDomain domain s = { s with domains := register FoundDomain.id s.domains domain } := by
  unfold safeAddDomain register
  split <;> rfl

theorem mem_sockets_safeAddSocket {topo : FoundTopology} {socket s : FoundSocket} :
    s ∈ (topo.safeAddSocket socket).sockets ↔
      s ∈ topo.sockets ∨ s = socket ∧ socket.id ∉ topo.socketIds := by
  rw [sockets_safeAddSocket, mem_register, socketIds]

theorem mem_socketIds_safeAddSocket {topo : FoundTopology} {socket : FoundSocket} {id : Nat} :
    id ∈ (topo.safeAddSocket socket).socketIds ↔ id ∈ topo.socketIds ∨ id = socket.id := by
  rw [socketIds, sockets_safeAddSocket, mem_keys_register, socketIds]

theorem nodup_socketIds_safeAddSocket {topo : FoundTopology} (distinct : topo.socketIds.Nodup)
    (socket : FoundSocket) : (topo.safeAddSocket socket).socketIds.Nodup := by
  rw [socketIds, sockets_safeAddSocket]
  exact nodup_register distinct socket

theorem mem_domains_safeAddDomain {domain d : FoundDomain} {s : FoundSocket} :
    d ∈ (safeAddDomain domain s).domains ↔
      d ∈ s.domains ∨ d = domain ∧ domain.id ∉ s.domains.map FoundDomain.id := by
  rw [safeAddDomain_eq, mem_register]

theorem nodup_domainIds_safeAddDomain {s : FoundSocket}
    (distinct : (s.domains.map FoundDomain.id).Nodup) (domain : FoundDomain) :
    ((safeAddDomain domain s).domains.map FoundDomain.id).Nodup := by
  rw [safeAddDomain_eq]
  exact nodup_register distinct domain

end FoundTopology

namespace Directory

/-- The folder asks for this domain. -/
def AsksFor (directory : Directory) (socketId domainId : Nat) (resource : DomainResource)
    (folder : Folder) : Prop :=
  directory.action folder = .ok (.domain socketId domainId (some resource))

/-- The folder is a domain folder of this socket, its name readable or not. -/
def BelongsTo (directory : Directory) (socketId : Nat) (folder : Folder) : Prop :=
  ∃ domainId resource, directory.action folder = .ok (.domain socketId domainId resource)

/-- What the folders met so far have led to, without mmio paths. -/
structure Described (directory : Directory) (met : List Folder) (topo : FoundTopology) :
    Prop where
  distinct : topo.socketIds.Nodup
  known : ∀ id, id ∈ topo.socketIds ↔ ∃ folder ∈ met, directory.BelongsTo id folder
  data : ∀ s ∈ topo.sockets, { s with domains := [] } = directory.newSocket s.id
  distinctDomains : ∀ s ∈ topo.sockets, (s.domains.map FoundDomain.id).Nodup
  origin : ∀ s ∈ topo.sockets, ∀ d ∈ s.domains, ∃ folder ∈ met, ∃ resource,
    directory.AsksFor s.id d.id resource folder ∧ d = directory.newDomain folder s.id d.id resource
  covered : ∀ s ∈ topo.sockets, ∀ folder ∈ met, ∀ domainId resource,
    directory.AsksFor s.id domainId resource folder → domainId ∈ s.domains.map FoundDomain.id
  named : (∃ folder ∈ met, ∃ socketId domainId resource,
    directory.AsksFor socketId domainId resource folder) →
      topo.domainsNames = topo.buildDomainsNames.domainsNames
  unnamed : (¬ ∃ folder ∈ met, ∃ socketId domainId resource,
    directory.AsksFor socketId domainId resource folder) → topo.domainsNames = none
  noPsys : topo.psys = none

variable {directory : Directory} {met : List Folder} {topo : FoundTopology}

theorem described_new : directory.Described [] .new where
  distinct := List.nodup_nil
  known := by simp [FoundTopology.new, FoundTopology.socketIds]
  data := fun _ member => absurd member List.not_mem_nil
  distinctDomains := fun _ member => absurd member List.not_mem_nil
  origin := fun _ member => absurd member List.not_mem_nil
  covered := fun _ member => absurd member List.not_mem_nil
  named := by simp
  unnamed := fun _ => rfl
  noPsys := rfl

theorem exists_mem_concat {Item : Type} {items : List Item} {last : Item} {p : Item → Prop} :
    (∃ item ∈ items ++ [last], p item) ↔ (∃ item ∈ items, p item) ∨ p last := by
  simp only [List.mem_append, List.mem_singleton, or_and_right, exists_or, exists_eq_left]

theorem buildDomainsNames_congr {first second : FoundTopology}
    (same : first.sockets.flatMap (fun s => s.domains.map FoundDomain.name) =
      second.sockets.flatMap fun s => s.domains.map FoundDomain.name) :
    first.buildDomainsNames.domainsNames = second.buildDomainsNames.domainsNames := by
  unfold FoundTopology.buildDomainsNames
  rw [same]

/-- A folder that asks for no domain leaves all as it is. -/
theorem Described.skip (described : directory.Described met topo) {folder : Folder}
    (foreign : ∀ id, ¬ directory.BelongsTo id folder) :
    directory.Described (met ++ [folder]) topo := by
  have asksNot : ∀ socketId domainId resource,
      ¬ directory.AsksFor socketId domainId resource folder :=
    fun socketId domainId resource asks => foreign socketId ⟨domainId, some resource, asks⟩
  have same : (∃ other ∈ met ++ [folder], ∃ socketId domainId resource,
      directory.AsksFor socketId domainId resource other) ↔
      ∃ other ∈ met, ∃ socketId domainId resource,
        directory.AsksFor socketId domainId resource other := by
    rw [exists_mem_concat, or_iff_left]
    rintro ⟨socketId, domainId, resource, asks⟩
    exact asksNot socketId domainId resource asks
  refine ⟨described.distinct, ?_, described.data, described.distinctDomains, ?_, ?_, ?_, ?_,
    described.noPsys⟩
  · intro id
    rw [exists_mem_concat, or_iff_left (foreign id)]
    exact described.known id
  · intro s isSocket d isDomain
    obtain ⟨other, isMet, rest⟩ := described.origin s isSocket d isDomain
    exact ⟨other, List.mem_append_left _ isMet, rest⟩
  · intro s isSocket other isMet domainId resource asks
    rcases List.mem_append.mp isMet with old | new
    · exact described.covered s isSocket other old domainId resource asks
    · rw [List.mem_singleton.mp new] at asks
      exact absurd asks (asksNot _ _ _)
  · rw [same]
    exact described.named
  · rw [same]
    exact described.unnamed

/-- What the domain that a folder asks for makes of a socket. -/
def extend (directory : Directory) (folder : Folder) (socketId domainId : Nat)
    (resource : Option DomainResource) (s : FoundSocket) : FoundSocket :=
  match resource with
  | some resource =>
      if s.id = socketId then
        FoundTopology.safeAddDomain (directory.newDomain folder socketId domainId resource) s
      else s
  | none => s

theorem sockets_addDomain (folder : Folder) (socketId domainId : Nat)
    (resource : Option DomainResource) :
    (directory.addDomain folder topo socketId domainId resource).sockets =
      (topo.safeAddSocket (directory.newSocket socketId)).sockets.map
        (directory.extend folder socketId domainId resource) := by
  cases resource with
  | none => exact (List.map_id' _).symm
  | some resource => rfl

/-- Extending a socket changes nothing but its domains. -/
theorem extend_eq (directory : Directory) (folder : Folder) (socketId domainId : Nat)
    (resource : Option DomainResource) (s : FoundSocket) : ∃ domains,
      directory.extend folder socketId domainId resource s = { s with domains := domains } := by
  unfold extend
  split
  · split
    · unfold FoundTopology.safeAddDomain
      split
      · exact ⟨s.domains, rfl⟩
      · exact ⟨_, rfl⟩
    · exact ⟨s.domains, rfl⟩
  · exact ⟨s.domains, rfl⟩

theorem id_extend (folder : Folder) (socketId domainId : Nat) (resource : Option DomainResource)
    (s : FoundSocket) : (directory.extend folder socketId domainId resource s).id = s.id := by
  obtain ⟨domains, same⟩ := directory.extend_eq folder socketId domainId resource s
  rw [same]

theorem mem_domains_extend {folder : Folder} {socketId domainId : Nat}
    {resource : Option DomainResource} {s : FoundSocket} {d : FoundDomain} :
    d ∈ (directory.extend folder socketId domainId resource s).domains ↔
      d ∈ s.domains ∨ s.id = socketId ∧ domainId ∉ s.domains.map FoundDomain.id ∧
        ∃ r, resource = some r ∧ d = directory.newDomain folder socketId domainId r := by
  unfold extend
  cases resource with
  | none => simp
  | some r =>
      simp only
      split
      · rename_i here
        rw [FoundTopology.mem_domains_safeAddDomain]
        constructor
        · rintro (old | ⟨new, fresh⟩)
          · exact Or.inl old
          · exact Or.inr ⟨here, fresh, r, rfl, new⟩
        · rintro (old | ⟨_, fresh, other, same, new⟩)
          · exact Or.inl old
          · cases same
            exact Or.inr ⟨new, fresh⟩
      · rename_i elsewhere
        simp [elsewhere]

theorem nodup_extend {s : FoundSocket} (distinct : (s.domains.map FoundDomain.id).Nodup)
    (folder : Folder) (socketId domainId : Nat) (resource : Option DomainResource) :
    ((directory.extend folder socketId domainId resource s).domains.map FoundDomain.id).Nodup := by
  unfold extend
  split
  · split
    · exact FoundTopology.nodup_domainIds_safeAddDomain distinct _
    · exact distinct
  · exact distinct

/-- A socket after a domain folder was met is an old one or that of the folder, extended. -/
theorem mem_sockets_addDomain {folder : Folder} {socketId domainId : Nat}
    {resource : Option DomainResource} {s : FoundSocket}
    (isSocket : s ∈ (directory.addDomain folder topo socketId domainId resource).sockets) :
    ∃ old, s = directory.extend folder socketId domainId resource old ∧
      (old ∈ topo.sockets ∨ old = directory.newSocket socketId ∧ socketId ∉ topo.socketIds) := by
  rw [sockets_addDomain] at isSocket
  obtain ⟨old, isOld, same⟩ := List.mem_map.mp isSocket
  exact ⟨old, same.symm, FoundTopology.mem_sockets_safeAddSocket.mp isOld⟩

theorem socketIds_addDomain (folder : Folder) (socketId domainId : Nat)
    (resource : Option DomainResource) :
    (directory.addDomain folder topo socketId domainId resource).socketIds =
      (topo.safeAddSocket (directory.newSocket socketId)).socketIds := by
  unfold FoundTopology.socketIds
  rw [sockets_addDomain, List.map_map]
  apply List.map_congr_left
  intro s _
  exact id_extend folder socketId domainId resource s

theorem psys_addDomain (folder : Folder) (socketId domainId : Nat)
    (resource : Option DomainResource) :
    (directory.addDomain folder topo socketId domainId resource).psys = topo.psys := by
  have kept : (topo.safeAddSocket (directory.newSocket socketId)).psys = topo.psys := by
    unfold FoundTopology.safeAddSocket
    split <;> rfl
  cases resource with
  | none => exact kept
  | some resource => exact kept

/-- A domain folder whose name cannot be read leaves the list of names right. -/
theorem domainsNames_safeAddSocket (directory : Directory) (topo : FoundTopology)
    (socketId : Nat) :
    (topo.safeAddSocket (directory.newSocket socketId)).domainsNames = topo.domainsNames ∧
      (topo.safeAddSocket (directory.newSocket socketId)).buildDomainsNames.domainsNames =
        topo.buildDomainsNames.domainsNames := by
  unfold FoundTopology.safeAddSocket
  split
  · exact ⟨rfl, rfl⟩
  · refine ⟨rfl, buildDomainsNames_congr ?_⟩
    simp [newSocket]

theorem belongsTo_iff {folder : Folder} {socketId domainId : Nat}
    {resource : Option DomainResource}
    (read : directory.action folder = .ok (.domain socketId domainId resource)) (id : Nat) :
    directory.BelongsTo id folder ↔ id = socketId := by
  constructor
  · rintro ⟨_, _, asks⟩
    rw [read] at asks
    cases asks
    rfl
  · rintro rfl
    exact ⟨domainId, resource, read⟩

theorem asksFor_iff {folder : Folder} {socketId domainId : Nat} {resource : Option DomainResource}
    (read : directory.action folder = .ok (.domain socketId domainId resource)) {id other : Nat}
    {r : DomainResource} :
    directory.AsksFor id other r folder ↔ id = socketId ∧ other = domainId ∧ resource = some r := by
  constructor
  · intro asks
    rw [AsksFor, read] at asks
    cases asks
    exact ⟨rfl, rfl, rfl⟩
  · rintro ⟨rfl, rfl, rfl⟩
    exact read

section DomainFolder

variable (described : directory.Described met topo) {folder : Folder} {socketId domainId : Nat}
  {resource : Option DomainResource}
  (read : directory.action folder = .ok (.domain socketId domainId resource))

include described read

theorem Described.origin_addDomain :
    ∀ s ∈ (directory.addDomain folder topo socketId domainId resource).sockets, ∀ d ∈ s.domains,
      ∃ other ∈ met ++ [folder], ∃ r, directory.AsksFor s.id d.id r other ∧
        d = directory.newDomain other s.id d.id r := by
  intro s isSocket d isDomain
  obtain ⟨old, rfl, origin⟩ := mem_sockets_addDomain isSocket
  rw [id_extend]
  rcases mem_domains_extend.mp isDomain with oldDomain | ⟨here, _, r, isSome, rfl⟩
  · rcases origin with isOld | ⟨rfl, _⟩
    · obtain ⟨other, isMet, rest⟩ := described.origin old isOld d oldDomain
      exact ⟨other, List.mem_append_left _ isMet, rest⟩
    · exact absurd oldDomain List.not_mem_nil
  · refine ⟨folder, List.mem_append_right _ (List.mem_singleton.mpr rfl), r, ?_, ?_⟩
    · exact (asksFor_iff read).mpr ⟨here, rfl, isSome⟩
    · rw [here]
      rfl

theorem Described.covered_addDomain :
    ∀ s ∈ (directory.addDomain folder topo socketId domainId resource).sockets,
      ∀ other ∈ met ++ [folder], ∀ otherId r, directory.AsksFor s.id otherId r other →
        otherId ∈ s.domains.map FoundDomain.id := by
  intro s isSocket other isMet otherId r asks
  obtain ⟨old, rfl, origin⟩ := mem_sockets_addDomain isSocket
  rw [id_extend] at asks
  by_cases already : otherId ∈ old.domains.map FoundDomain.id
  · obtain ⟨d, isDomain, rfl⟩ := List.mem_map.mp already
    exact List.mem_map_of_mem (mem_domains_extend.mpr (Or.inl isDomain))
  · rcases List.mem_append.mp isMet with oldFolder | newFolder
    · refine absurd ?_ already
      rcases origin with isOld | ⟨rfl, fresh⟩
      · exact described.covered old isOld other oldFolder otherId r asks
      · exact absurd ((described.known socketId).mpr ⟨other, oldFolder, otherId, some r, asks⟩)
          fresh
    · rw [List.mem_singleton.mp newFolder] at asks
      obtain ⟨here, rfl, isSome⟩ := (asksFor_iff read).mp asks
      exact List.mem_map.mpr ⟨directory.newDomain folder socketId otherId r,
        mem_domains_extend.mpr (Or.inr ⟨here, already, r, isSome, rfl⟩), rfl⟩

/-- The list of names is rebuilt with each domain. -/
theorem Described.named_addDomain
    (asked : ∃ other ∈ met ++ [folder], ∃ id otherId r, directory.AsksFor id otherId r other) :
    (directory.addDomain folder topo socketId domainId resource).domainsNames =
      ((directory.addDomain folder topo socketId domainId
        resource).buildDomainsNames).domainsNames := by
  cases resource with
  | some resource => rfl
  | none =>
      obtain ⟨sameNames, sameBuilt⟩ := directory.domainsNames_safeAddSocket topo socketId
      refine sameNames.trans (Eq.trans ?_ sameBuilt.symm)
      apply described.named
      rcases exists_mem_concat.mp asked with old | ⟨id, other, r, asks⟩
      · exact old
      · cases ((asksFor_iff read).mp asks).2.2

theorem Described.unnamed_addDomain
    (never : ¬ ∃ other ∈ met ++ [folder], ∃ id otherId r, directory.AsksFor id otherId r other) :
    (directory.addDomain folder topo socketId domainId resource).domainsNames = none := by
  rw [exists_mem_concat, not_or] at never
  cases resource with
  | some resource => exact absurd ⟨socketId, domainId, resource, read⟩ never.2
  | none =>
      exact (directory.domainsNames_safeAddSocket topo socketId).1.trans
        (described.unnamed never.1)

/-- Meeting a domain folder. -/
theorem Described.addDomain :
    directory.Described (met ++ [folder])
      (directory.addDomain folder topo socketId domainId resource) where
  distinct := by
    rw [socketIds_addDomain]
    exact FoundTopology.nodup_socketIds_safeAddSocket described.distinct _
  known := by
    intro id
    rw [socketIds_addDomain, FoundTopology.mem_socketIds_safeAddSocket, exists_mem_concat,
      described.known id, belongsTo_iff read id]
    rfl
  data := by
    intro s isSocket
    obtain ⟨old, rfl, origin⟩ := mem_sockets_addDomain isSocket
    obtain ⟨domains, same⟩ := directory.extend_eq folder socketId domainId resource old
    rw [same]
    rcases origin with isOld | ⟨rfl, _⟩
    · exact described.data old isOld
    · rfl
  distinctDomains := by
    intro s isSocket
    obtain ⟨old, rfl, origin⟩ := mem_sockets_addDomain isSocket
    apply nodup_extend
    rcases origin with isOld | ⟨rfl, _⟩
    · exact described.distinctDomains old isOld
    · exact List.nodup_nil
  origin := described.origin_addDomain read
  covered := described.covered_addDomain read
  named := described.named_addDomain read
  unnamed := described.unnamed_addDomain read
  noPsys := (psys_addDomain folder socketId domainId resource).trans described.noPsys

end DomainFolder

theorem Described.addBare (described : directory.Described met topo) (folder : Folder) :
    directory.Described (met ++ [folder]) (directory.addBare topo folder) := by
  unfold Directory.addBare
  split
  · rename_i socketId domainId resource read
    exact described.addDomain read
  · rename_i other
    refine described.skip ?_
    rintro id ⟨domainId, resource, asks⟩
    exact other id domainId resource asks

theorem described_foldl (folders : List Folder) :
    directory.Described folders (folders.foldl directory.addBare .new) := by
  have general : ∀ (rest met : List Folder) (topo : FoundTopology),
      directory.Described met topo →
        directory.Described (met ++ rest) (rest.foldl directory.addBare topo) := by
    intro rest
    induction rest with
    | nil =>
        intro met topo described
        rw [List.append_nil]
        exact described
    | cons folder rest ih =>
        intro met topo described
        have next := ih (met ++ [folder]) _ (described.addBare folder)
        rw [List.append_assoc] at next
        exact next
  exact general folders [] .new described_new

end Directory

end ScaphandreFormal.Sensors.Powercap
