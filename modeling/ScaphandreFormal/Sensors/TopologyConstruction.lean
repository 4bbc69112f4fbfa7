import Mathlib.Data.List.TakeWhile
import ScaphandreFormal.Foundation.Registry
import ScaphandreFormal.Foundation.Trace
import ScaphandreFormal.Sensors.DiscoveryResult

/-!
# Construction of the topology

A sensor builds the topology by `safe_add_socket`, `safe_insert_socket` and
`safe_add_domain_to_socket`, in any order, and hands the cores out at the end.  The sockets and
the domains of each socket are registries, so the first registration of an id wins; the
list of names is kept in step with the domains; and every core finds one socket.
-/

namespace ScaphandreFormal.Sensors.Powercap

open Foundation

/-! ## Calls -/

namespace FoundTopology

/-- `safe_insert_socket`, which differs from `safe_add_socket` in who creates the socket. -/
def safeInsertSocket (topo : FoundTopology) (socket : FoundSocket) : FoundTopology :=
  topo.safeAddSocket socket

end FoundTopology

/-- A call that builds the topology; the sockets are passed without domains and cores. -/
inductive Call where
  | safeAddSocket (socketId : Nat) (counterUjPath : Text) (sensorData : SensorData)
  | safeInsertSocket (socket : FoundSocket) (noDomains : socket.domains = [])
      (noCores : socket.cpuCores = [])
  | safeAddDomainToSocket (socketId : Nat) (domain : FoundDomain)

namespace Call

/-- The socket that is offered. -/
def socket : Call → Option FoundSocket
  | safeAddSocket socketId counterUjPath sensorData =>
      some { id := socketId, domains := [], counterUjPath, cpuCores := [], sensorData }
  | safeInsertSocket socket _ _ => some socket
  | safeAddDomainToSocket _ _ => none

/-- The domain that is offered to the socket. -/
def domainFor (socketId : Nat) : Call → Option FoundDomain
  | safeAddSocket _ _ _ => none
  | safeInsertSocket _ _ _ => none
  | safeAddDomainToSocket asked domain => if asked = socketId then some domain else none

def perform (topo : FoundTopology) : Call → FoundTopology
  | safeAddSocket socketId counterUjPath sensorData =>
      topo.safeAddSocket
        { id := socketId, domains := [], counterUjPath, cpuCores := [], sensorData }
  | safeInsertSocket socket _ _ => topo.safeInsertSocket socket
  | safeAddDomainToSocket socketId domain => topo.safeAddDomainToSocket socketId domain

/-- The call offers a socket of this id. -/
def offers (socketId : Nat) (call : Call) : Bool := call.socket.any fun s => s.id = socketId

/-- The call is one of `safe_add_domain_to_socket`. -/
def addsDomain (call : Call) : Bool := call.socket.isNone

/-- A call offers an empty socket or a domain. -/
theorem perform_cases (call : Call) :
    (∃ offered, call.socket = some offered ∧ offered.domains = [] ∧ offered.cpuCores = [] ∧
        (∀ socketId, call.domainFor socketId = none) ∧
        ∀ topo, perform topo call = topo.safeAddSocket offered) ∨
      ∃ socketId domain, call = safeAddDomainToSocket socketId domain := by
  cases call with
  | safeAddSocket socketId counterUjPath sensorData =>
      exact Or.inl ⟨_, rfl, rfl, rfl, fun _ => rfl, fun _ => rfl⟩
  | safeInsertSocket socket noDomains noCores =>
      exact Or.inl ⟨socket, rfl, noDomains, noCores, fun _ => rfl, fun _ => rfl⟩
  | safeAddDomainToSocket socketId domain => exact Or.inr ⟨socketId, domain, rfl⟩

end Call

/-- The topology after the calls. -/
def constructed (calls : List Call) : FoundTopology := run Call.perform .new calls

/-- The domains that are offered to a socket once it is there. -/
def domainsAfter (socketId : Nat) (calls : List Call) : List FoundDomain :=
  (calls.dropWhile fun call => !call.offers socketId).filterMap (Call.domainFor socketId)

theorem domainsAfter_append {socketId : Nat} {calls : List Call}
    (offered : ∃ call ∈ calls, call.offers socketId = true) (more : List Call) :
    domainsAfter socketId (calls ++ more) =
      domainsAfter socketId calls ++ more.filterMap (Call.domainFor socketId) := by
  have started : (calls.dropWhile fun call => !call.offers socketId) ≠ [] := by
    intro dropped
    obtain ⟨found, member, offers⟩ := offered
    have passed := List.dropWhile_eq_nil_iff.mp dropped found member
    rw [offers] at passed
    cases passed
  rw [domainsAfter, List.dropWhile_append, if_neg (by rwa [List.isEmpty_iff]),
    List.filterMap_append]
  rfl

theorem domainsAfter_fresh {socketId : Nat} {calls : List Call}
    (unknown : ∀ call ∈ calls, call.offers socketId = false) {call : Call}
    (noDomain : call.domainFor socketId = none) :
    domainsAfter socketId (calls ++ [call]) = [] := by
  have dropped : (calls.dropWhile fun call => !call.offers socketId) = [] := by
    rw [List.dropWhile_eq_nil_iff]
    intro other member
    rw [unknown other member]
    rfl
  rw [domainsAfter, List.dropWhile_append, dropped, List.isEmpty_nil, if_pos rfl,
    List.dropWhile_cons]
  split
  · rfl
  · exact List.filterMap_cons_none noDomain

/-! ## The sockets, their domains and the names -/

namespace FoundTopology

def withoutDomains (s : FoundSocket) : FoundSocket := { s with domains := [] }

/-- What `safe_add_domain_to_socket` does to one socket. -/
def offerDomain (socketId : Nat) (domain : FoundDomain) (s : FoundSocket) : FoundSocket :=
  if s.id = socketId then safeAddDomain domain s else s

theorem id_offerDomain (socketId : Nat) (domain : FoundDomain) (s : FoundSocket) :
    (offerDomain socketId domain s).id = s.id := by
  unfold offerDomain
  rw [safeAddDomain_eq]
  split <;> rfl

theorem withoutDomains_offerDomain (socketId : Nat) (domain : FoundDomain) (s : FoundSocket) :
    withoutDomains (offerDomain socketId domain s) = withoutDomains s := by
  unfold offerDomain
  rw [safeAddDomain_eq]
  split <;> rfl

end FoundTopology

open FoundTopology

/-- What the calls leave: the sockets as they were first registered, each with the domains
first registered for it, and the names in step with them. -/
structure Constructed (calls : List Call) (topo : FoundTopology) : Prop where
  sockets : topo.sockets.map withoutDomains =
    registerAll FoundSocket.id (calls.filterMap Call.socket)
  domains : ∀ s ∈ topo.sockets,
    s.domains = registerAll FoundDomain.id (domainsAfter s.id calls)
  names : (∃ call ∈ calls, call.addsDomain = true) →
    topo.domainsNames = topo.buildDomainsNames.domainsNames

namespace Constructed

variable {calls : List Call} {topo : FoundTopology}

theorem mem_socketIds_iff (built : Constructed calls topo) {socketId : Nat} :
    socketId ∈ topo.socketIds ↔ ∃ call ∈ calls, call.offers socketId = true := by
  have ids : topo.socketIds = (topo.sockets.map withoutDomains).map FoundSocket.id := by
    rw [List.map_map]
    rfl
  rw [ids, built.sockets, mem_keys_registerAll, List.mem_map]
  constructor
  · rintro ⟨offered, member, rfl⟩
    obtain ⟨call, isCall, offers⟩ := List.mem_filterMap.mp member
    refine ⟨call, isCall, ?_⟩
    rw [Call.offers, offers]
    exact decide_eq_true rfl
  · rintro ⟨call, isCall, offers⟩
    obtain ⟨offered, isOffered, same⟩ := (Option.any_eq_true _ _).mp offers
    exact ⟨offered, List.mem_filterMap.mpr ⟨call, isCall, isOffered⟩, of_decide_eq_true same⟩

theorem offered_of_mem (built : Constructed calls topo) {s : FoundSocket}
    (member : s ∈ topo.sockets) : ∃ call ∈ calls, call.offers s.id = true :=
  built.mem_socketIds_iff.mp (List.mem_map_of_mem member)

theorem safeAddSocket (built : Constructed calls topo) {call : Call} {offered : FoundSocket}
    (offers : call.socket = some offered) (empty : offered.domains = [])
    (noDomain : ∀ socketId, call.domainFor socketId = none) :
    Constructed (calls ++ [call]) (topo.safeAddSocket offered) where
  sockets := by
    have bare : withoutDomains offered = offered := by
      unfold withoutDomains
      rw [← empty]
    have kept : ∀ s, (withoutDomains s).id = s.id := fun _ => rfl
    rw [sockets_safeAddSocket, map_register kept, built.sockets, bare,
      List.filterMap_append, List.filterMap_cons_some offers, List.filterMap_nil,
      registerAll_concat]
  domains := by
    intro s member
    rcases mem_sockets_safeAddSocket.mp member with old | ⟨rfl, fresh⟩
    · rw [domainsAfter_append (built.offered_of_mem old), List.filterMap_cons_none (noDomain s.id),
        List.filterMap_nil, List.append_nil]
      exact built.domains s old
    · have unknown : ∀ call ∈ calls, call.offers s.id = false := by
        intro other isCall
        rw [Bool.eq_false_iff]
        exact fun offers => fresh (built.mem_socketIds_iff.mpr ⟨other, isCall, offers⟩)
      rw [domainsAfter_fresh unknown (noDomain s.id), empty]
      rfl
  names := by
    intro asked
    rcases Directory.exists_mem_concat.mp asked with earlier | here
    · have same : (topo.safeAddSocket offered).sockets.flatMap
            (fun s => s.domains.map FoundDomain.name) =
          topo.sockets.flatMap fun s => s.domains.map FoundDomain.name := by
        rw [sockets_safeAddSocket]
        by_cases known : offered.id ∈ topo.sockets.map FoundSocket.id
        · rw [register_of_mem known]
        · rw [register_of_not_mem known, List.flatMap_append, List.flatMap_singleton, empty,
            List.map_nil, List.append_nil]
      have kept : (topo.safeAddSocket offered).domainsNames = topo.domainsNames := by
        unfold FoundTopology.safeAddSocket
        split <;> rfl
      rw [kept, built.names earlier]
      exact (Directory.buildDomainsNames_congr same).symm
    · rw [Call.addsDomain, offers] at here
      cases here

theorem safeAddDomainToSocket (built : Constructed calls topo) (socketId : Nat)
    (domain : FoundDomain) :
    Constructed (calls ++ [.safeAddDomainToSocket socketId domain])
      (topo.safeAddDomainToSocket socketId domain) where
  sockets := by
    change (topo.sockets.map (offerDomain socketId domain)).map withoutDomains = _
    rw [List.map_map, List.filterMap_append, List.filterMap_cons_none rfl, List.filterMap_nil,
      List.append_nil, ← built.sockets]
    exact List.map_congr_left fun s _ => withoutDomains_offerDomain socketId domain s
  domains := by
    intro s member
    obtain ⟨old, isOld, rfl⟩ := List.mem_map.mp member
    change (offerDomain socketId domain old).domains =
      registerAll _ (domainsAfter (offerDomain socketId domain old).id _)
    rw [id_offerDomain, domainsAfter_append (built.offered_of_mem isOld), offerDomain]
    by_cases same : old.id = socketId
    · have asked : Call.domainFor old.id (.safeAddDomainToSocket socketId domain) =
          some domain := if_pos same.symm
      rw [if_pos same, safeAddDomain_eq, List.filterMap_cons_some asked, List.filterMap_nil,
        registerAll_concat, built.domains old isOld]
    · have elsewhere : Call.domainFor old.id (.safeAddDomainToSocket socketId domain) = none :=
        if_neg fun other => same other.symm
      rw [if_neg same, List.filterMap_cons_none elsewhere, List.filterMap_nil, List.append_nil]
      exact built.domains old isOld
  names := by
    intro _
    rfl

end Constructed

theorem constructed_meets (calls : List Call) : Constructed calls (constructed calls) := by
  induction calls using List.reverseRecOn with
  | nil => exact ⟨rfl, by rintro s ⟨⟩, by rintro ⟨call, ⟨⟩, _⟩⟩
  | append_singleton before call ih =>
      rw [constructed, run_concat]
      rcases call.perform_cases with
        ⟨offered, offers, empty, _, noDomain, performed⟩ | ⟨socketId, domain, rfl⟩
      · rw [performed]
        exact ih.safeAddSocket offers empty noDomain
      · exact ih.safeAddDomainToSocket socketId domain

namespace Constructed

variable {calls more : List Call} {topo later : FoundTopology}

theorem nodup_socketIds (built : Constructed calls topo) : topo.socketIds.Nodup := by
  have ids : topo.socketIds = (topo.sockets.map withoutDomains).map FoundSocket.id := by
    rw [List.map_map]
    rfl
  rw [ids, built.sockets]
  exact nodup_registerAll _

theorem cpuCores_eq_nil (built : Constructed calls topo) {s : FoundSocket}
    (member : s ∈ topo.sockets) : s.cpuCores = [] := by
  have bare : withoutDomains s ∈ registerAll FoundSocket.id (calls.filterMap Call.socket) := by
    rw [← built.sockets]
    exact List.mem_map_of_mem member
  obtain ⟨call, _, isOffered⟩ := List.mem_filterMap.mp (mem_of_mem_registerAll bare)
  rcases call.perform_cases with ⟨offered, offers, _, empty, _⟩ | ⟨socketId, domain, rfl⟩
  · rw [offers, Option.some.injEq] at isOffered
    rw [isOffered] at empty
    exact empty
  · cases isOffered

theorem find?_sockets (built : Constructed calls topo) (socketId : Nat) :
    (topo.sockets.find? fun s => s.id = socketId).map withoutDomains =
      (calls.filterMap Call.socket).find? fun s => s.id = socketId := by
  have found : (registerAll FoundSocket.id (calls.filterMap Call.socket)).find?
      (fun s => s.id = socketId) = _ := find?_registerAll _ socketId
  rw [← built.sockets, List.find?_map] at found
  exact found

/-- Later calls leave the sockets as they are, and only add domains. -/
theorem kept (built : Constructed calls topo) (after : Constructed (calls ++ more) later)
    {s : FoundSocket} (member : s ∈ topo.sockets) :
    ∃ next ∈ later.sockets, withoutDomains next = withoutDomains s ∧
      s.domains <+: next.domains := by
  have bare : withoutDomains s ∈ later.sockets.map withoutDomains := by
    rw [after.sockets, List.filterMap_append]
    refine (prefix_registerAll _ _).subset ?_
    rw [← built.sockets]
    exact List.mem_map_of_mem member
  obtain ⟨next, isNext, same⟩ := List.mem_map.mp bare
  have id : (withoutDomains next).id = (withoutDomains s).id := by rw [same]
  change next.id = s.id at id
  refine ⟨next, isNext, same, ?_⟩
  rw [built.domains s member, after.domains next isNext, id,
    domainsAfter_append (built.offered_of_mem member)]
  exact prefix_registerAll _ _

end Constructed

/-- The names are those of the domains, in strictly increasing order. -/
structure NamesAllDomains (topo : FoundTopology) (names : List Text) : Prop where
  sorted : names.Pairwise (· < ·)
  mem_iff : ∀ name, name ∈ names ↔ ∃ s ∈ topo.sockets, ∃ d ∈ s.domains, d.name = name

theorem buildDomainsNames_names (topo : FoundTopology) :
    ∃ names, topo.buildDomainsNames.domainsNames = some names ∧ NamesAllDomains topo names := by
  refine ⟨_, rfl, ?_, ?_⟩
  · have distinct := (List.perm_insertionSort (· ≤ ·) _).nodup_iff.mpr
      (List.nodup_dedup (topo.sockets.flatMap fun s => s.domains.map FoundDomain.name))
    have sorted := List.pairwise_insertionSort (· ≤ ·)
      (topo.sockets.flatMap fun s => s.domains.map FoundDomain.name).dedup
    exact (sorted.and distinct).imp fun both => lt_of_le_of_ne both.1 both.2
  · intro name
    rw [List.mem_insertionSort, List.mem_dedup, List.mem_flatMap]
    simp only [List.mem_map]

/-! ## Cores -/

/-- What `add_cpu_cores` reads of a core of `generate_cpu_cores`. -/
structure PhysicalCore where
  id : Nat
  physicalId : Option Text
  deriving DecidableEq

namespace PhysicalCore

/-- The physical id, where it parses. -/
def socketId (core : PhysicalCore) : Option Nat := core.physicalId.bind parseU16

/-- The id of the socket of the core: its physical id, or that of the first socket. -/
def home (topo : FoundTopology) (core : PhysicalCore) : Nat :=
  match core.socketId with
  | some id => if id ∈ topo.socketIds then id else topo.socketIds.headD 0
  | none => topo.socketIds.headD 0

theorem home_congr {first second : FoundTopology} (same : first.socketIds = second.socketIds)
    (core : PhysicalCore) : core.home first = core.home second := by
  unfold home
  rw [same]

end PhysicalCore

namespace FoundTopology

/-- The body of the loop of `add_cpu_cores`, with both `unwrap` of the physical id. -/
def addGeneratedCore (topo : FoundTopology) (core : PhysicalCore) :
    Except DiscoveryPanic FoundTopology :=
  match core.physicalId with
  | some text =>
      match parseU16 text with
      | some socketId => topo.addCpuCore (core.id, socketId)
      | none => .error .parseInt
  | none => .error .missingPiece

/-- `add_cpu_cores`: the cores are popped from the end. -/
def addGeneratedCores (cores : List PhysicalCore) (topo : FoundTopology) :
    Except DiscoveryPanic FoundTopology :=
  cores.reverse.foldlM addGeneratedCore topo

/-- The cores that belong to a socket, as they are popped. -/
def coresOf (topo : FoundTopology) (cores : List PhysicalCore) (socketId : Nat) :
    List PhysicalCore :=
  cores.reverse.filter fun core => core.home topo = socketId

/-- The socket with the core, when it is the home of the core. -/
def giveCore (home coreId : Nat) (s : FoundSocket) : FoundSocket :=
  if s.id = home then { s with cpuCores := s.cpuCores ++ [coreId] } else s

theorem id_giveCore (home coreId : Nat) (s : FoundSocket) :
    (giveCore home coreId s).id = s.id := by
  unfold giveCore
  split <;> rfl

theorem addGeneratedCore_eq {topo : FoundTopology} (distinct : topo.socketIds.Nodup)
    (room : topo.sockets ≠ []) {core : PhysicalCore} (parses : core.socketId.isSome = true) :
    topo.addGeneratedCore core = .ok { topo with
      sockets := topo.sockets.map (giveCore (core.home topo) core.id) } := by
  obtain ⟨socketId, parsed⟩ := Option.isSome_iff_exists.mp parses
  obtain ⟨text, isText, number⟩ := Option.bind_eq_some_iff.mp parsed
  obtain ⟨first, rest, listed⟩ := List.exists_cons_of_ne_nil room
  have added : topo.addGeneratedCore core = topo.addCpuCore (core.id, socketId) := by
    rw [addGeneratedCore, isText]
    simp only [number]
  rw [added]
  unfold addCpuCore
  rw [listed]
  simp only [← listed]
  cases found : topo.sockets.findIdx? fun s => s.id = socketId with
  | some index =>
      have known : socketId ∈ topo.socketIds := by
        obtain ⟨within, same, _⟩ := List.findIdx?_eq_some_iff_getElem.mp found
        exact List.mem_map.mpr ⟨_, List.getElem_mem within, of_decide_eq_true same⟩
      have isHome : core.home topo = socketId := by
        rw [PhysicalCore.home, parsed]
        exact if_pos known
      simp only [isHome]
      rw [modify_findIdx? distinct found]
      rfl
  | none =>
      have unknown : socketId ∉ topo.socketIds := by
        intro known
        obtain ⟨s, member, same⟩ := List.mem_map.mp known
        have missed := List.findIdx?_eq_none_iff.mp found s member
        rw [same, decide_eq_true rfl] at missed
        cases missed
      have isHome : core.home topo = first.id := by
        rw [PhysicalCore.home, parsed]
        refine (if_neg unknown).trans ?_
        rw [socketIds, listed]
        rfl
      have absent : first.id ∉ rest.map FoundSocket.id := by
        rw [socketIds, listed] at distinct
        exact (List.nodup_cons.mp distinct).1
      simp only [isHome]
      unfold giveCore
      rw [listed, List.map_cons, if_pos rfl, map_eq_self_of_not_mem absent]

end FoundTopology

/-- The topology with its cores: the sockets have the cores that belong to them, and every
core belongs to one. -/
structure Placed (topo : FoundTopology) (cores : List PhysicalCore) (result : FoundTopology) :
    Prop where
  sockets : result.sockets = topo.sockets.map fun s =>
    { s with cpuCores := s.cpuCores ++ (topo.coresOf cores s.id).map PhysicalCore.id }
  domainsNames : result.domainsNames = topo.domainsNames
  psys : result.psys = topo.psys
  once : (topo.sockets.flatMap fun s => topo.coresOf cores s.id).Perm cores

namespace FoundTopology

/-- The loop hands each core to its home, whatever it handed out before. -/
theorem foldlM_addGeneratedCore {topo : FoundTopology} (distinct : topo.socketIds.Nodup)
    (room : topo.sockets ≠ []) {popped : List PhysicalCore}
    (parse : ∀ core ∈ popped, core.socketId.isSome = true) :
    popped.foldlM addGeneratedCore topo = .ok { topo with
      sockets := topo.sockets.map fun s => { s with
        cpuCores := s.cpuCores ++
          (popped.filter fun core => core.home topo = s.id).map PhysicalCore.id } } := by
  induction popped generalizing topo with
  | nil =>
      have same : (topo.sockets.map fun s => { s with cpuCores := s.cpuCores ++ [] }) =
          topo.sockets := by
        simp only [List.append_nil, List.map_id']
      exact congrArg (fun sockets => Except.ok { topo with sockets := sockets }) same.symm
  | cons core popped ih =>
      obtain ⟨here, others⟩ := List.forall_mem_cons.mp parse
      rw [List.foldlM_cons, addGeneratedCore_eq distinct room here]
      change popped.foldlM addGeneratedCore
        { topo with sockets := topo.sockets.map (giveCore (core.home topo) core.id) } = _
      have ids : ({ topo with sockets := topo.sockets.map (giveCore (core.home topo) core.id) } :
          FoundTopology).socketIds = topo.socketIds := by
        rw [socketIds, List.map_map]
        exact List.map_congr_left fun s _ => id_giveCore _ _ s
      have homes := PhysicalCore.home_congr ids
      rw [ih (by rwa [ids]) (by simpa using room) others]
      congr 2
      rw [List.map_map]
      refine List.map_congr_left fun s _ => ?_
      simp only [Function.comp_apply, homes, id_giveCore]
      by_cases isHome : s.id = core.home topo
      · rw [giveCore, if_pos isHome, List.filter_cons_of_pos (by simpa using isHome.symm)]
        simp only [List.append_assoc, List.singleton_append, List.map_cons]
      · rw [giveCore, if_neg isHome,
          List.filter_cons_of_neg (by simpa using fun same => isHome same.symm)]

theorem home_mem_socketIds {topo : FoundTopology} (room : topo.sockets ≠ [])
    (core : PhysicalCore) : core.home topo ∈ topo.socketIds := by
  obtain ⟨first, rest, listed⟩ := List.exists_cons_of_ne_nil room
  have headed : topo.socketIds.headD 0 ∈ topo.socketIds := by
    rw [socketIds, listed]
    exact List.mem_cons_self
  unfold PhysicalCore.home
  split
  · split
    · assumption
    · exact headed
  · exact headed

theorem addGeneratedCores_placed {topo : FoundTopology} (distinct : topo.socketIds.Nodup)
    (room : topo.sockets ≠ []) {cores : List PhysicalCore}
    (parse : ∀ core ∈ cores, core.socketId.isSome = true) :
    ∃ result, addGeneratedCores cores topo = .ok result ∧ Placed topo cores result := by
  have popped : ∀ core ∈ cores.reverse, core.socketId.isSome = true := fun core member =>
    parse core (List.mem_reverse.mp member)
  refine ⟨_, foldlM_addGeneratedCore distinct room popped, rfl, rfl, rfl, ?_⟩
  have homed : ∀ core ∈ cores.reverse, core.home topo ∈ topo.socketIds := fun core _ =>
    home_mem_socketIds room core
  have handed := perm_flatMap_filter distinct homed
  rw [socketIds, List.flatMap_map] at handed
  exact handed.trans (List.reverse_perm cores)

end FoundTopology

/-- What holds of a topology however it was built, and of the cores that are then added. -/
structure ConstructionInvariant (calls : List Call) (topo : FoundTopology) : Prop where
  socketIds : topo.socketIds.Nodup
  domainIds : ∀ s ∈ topo.sockets, (s.domains.map FoundDomain.id).Nodup
  firstSocket : ∀ socketId, (topo.sockets.find? fun s => s.id = socketId).map withoutDomains =
    (calls.filterMap Call.socket).find? fun s => s.id = socketId
  firstDomain : ∀ s ∈ topo.sockets, ∀ domainId,
    (s.domains.find? fun d => d.id = domainId) =
      (domainsAfter s.id calls).find? fun d => d.id = domainId
  kept : ∀ before after, calls = before ++ after → ∀ s ∈ (constructed before).sockets,
    ∃ next ∈ topo.sockets, withoutDomains next = withoutDomains s ∧ s.domains <+: next.domains
  names : (∃ call ∈ calls, call.addsDomain = true) →
    ∃ names, topo.domainsNames = some names ∧ NamesAllDomains topo names
  noCores : ∀ s ∈ topo.sockets, s.cpuCores = []
  cores : ∀ cores : List PhysicalCore, topo.sockets ≠ [] →
    (∀ core ∈ cores, core.socketId.isSome = true) →
      ∃ result, addGeneratedCores cores topo = .ok result ∧ Placed topo cores result

/-- After any calls the ids are distinct, the first registrations have won, the names are
those of the domains, and the cores that are added then find one socket each. -/
theorem construction_invariant (calls : List Call) :
    ConstructionInvariant calls (constructed calls) := by
  have built := constructed_meets calls
  refine ⟨built.nodup_socketIds, ?_, built.find?_sockets, ?_, ?_, ?_,
    fun s => built.cpuCores_eq_nil, ?_⟩
  · intro s member
    rw [built.domains s member]
    exact nodup_registerAll _
  · intro s member domainId
    rw [built.domains s member, find?_registerAll]
  · rintro before after rfl s member
    exact (constructed_meets before).kept built member
  · intro asked
    rw [built.names asked]
    exact buildDomainsNames_names (constructed calls)
  · intro cores room parse
    exact addGeneratedCores_placed built.nodup_socketIds room parse

end ScaphandreFormal.Sensors.Powercap
