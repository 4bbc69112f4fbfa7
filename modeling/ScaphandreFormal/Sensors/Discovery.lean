import ScaphandreFormal.Foundation.Decimal
import Mathlib.Data.Char
import Mathlib.Data.List.Dedup
import Mathlib.Data.List.Lex
import Mathlib.Data.List.Sort

/-!
# Discovery of the powercap folders

`generate_topology` of the powercap sensor lists its base directory three times.
The first pass takes the domain folders apart, creates the sockets they belong to
and hands mmio folders to the sockets and domains that are already there.  Only
when it met no domain folder, a second pass creates sockets from the socket
folders.  The third pass looks for psys.
-/

namespace ScaphandreFormal.Sensors.Powercap

open Foundation

/-! ## The directory -/

/-- A folder of the powercap directory, with what is in its files `name` and
`max_energy_range_uj`, absent when they cannot be read. -/
structure Folder where
  component : Text
  name : Option Text
  maxEnergyRangeUj : Option Text
  deriving DecidableEq, Repr

/-- The base path of the sensor and what is there. -/
structure Directory where
  basePath : Text
  folders : List Folder
  distinct : (folders.map Folder.component).Nodup
  separated : ∀ folder ∈ folders, '/' ∉ folder.component

/-- The orders in which the three calls of `read_dir` list the folders. -/
structure Listing (directory : Directory) where
  first : List Folder
  second : List Folder
  third : List Folder
  firstPerm : first.Perm directory.folders
  secondPerm : second.Perm directory.folders
  thirdPerm : third.Perm directory.folders

/-- `Path::join` with the name of a folder. -/
def joinPath (basePath component : Text) : Text :=
  if basePath = [] then component
  else if basePath.getLast? = some '/' then basePath ++ component
  else basePath ++ '/' :: component

namespace Directory

/-- `folder.path().to_str()`. -/
def path (directory : Directory) (folder : Folder) : Text :=
  joinPath directory.basePath folder.component

/-- `{base_path}/intel-rapl:{socket_id}`. -/
def socketPath (directory : Directory) (socketId : Nat) : Text :=
  directory.basePath ++ "/intel-rapl:".toList ++ toText socketId

/-- What is in `max_energy_range_uj` of the socket folder, where there is one. -/
def socketMaxEnergyRangeUj (directory : Directory) (socketId : Nat) : Option Text :=
  (directory.folders.find? fun folder =>
    folder.component = "intel-rapl:".toList ++ toText socketId).bind Folder.maxEnergyRangeUj

end Directory

/-! ## Paths -/

/-- The digits zero of the scripts that have decimal digits, in Unicode 16. -/
def decimalZeros : List Nat :=
  [0x30, 0x660, 0x6F0, 0x7C0, 0x966, 0x9E6, 0xA66, 0xAE6, 0xB66, 0xBE6, 0xC66, 0xCE6, 0xD66,
   0xDE6, 0xE50, 0xED0, 0xF20, 0x1040, 0x1090, 0x17E0, 0x1810, 0x1946, 0x19D0, 0x1A80, 0x1A90,
   0x1B50, 0x1BB0, 0x1C40, 0x1C50, 0xA620, 0xA8D0, 0xA900, 0xA9D0, 0xA9F0, 0xAA50, 0xABF0,
   0xFF10, 0x104A0, 0x10D30, 0x10D40, 0x11066, 0x110F0, 0x11136, 0x111D0, 0x112F0, 0x11450,
   0x114D0, 0x11650, 0x116C0, 0x116D0, 0x116DA, 0x11730, 0x118E0, 0x11950, 0x11BF0, 0x11C50,
   0x11D50, 0x11DA0, 0x11F50, 0x16130, 0x16A60, 0x16AC0, 0x16B50, 0x16D70, 0x1CCF0, 0x1D7CE,
   0x1D7D8, 0x1D7E2, 0x1D7EC, 0x1D7F6, 0x1E140, 0x1E2F0, 0x1E4F0, 0x1E5F1, 0x1E950, 0x1FBF0]

/-- What `\d` matches: a character of the Unicode category `Nd`. -/
def isDecimalDigit (c : Char) : Bool :=
  decimalZeros.any fun first => first ≤ c.toNat && c.toNat < first + 10

/-- The regular expression `^.*/{name}(:\d+)$`, with `count` repetitions of the last group.  The
point matches no line feed. -/
def isFolder (name : Text) (count : Nat) (path : Text) : Bool :=
  let component := (path.reverse.takeWhile (· ≠ '/')).reverse
  let parent := path.reverse.dropWhile (· ≠ '/')
  decide (parent ≠ []) && parent.all (· ≠ '\n') &&
    match component.splitOn ':' with
    | first :: numbers =>
        first = name && numbers.length = count &&
          numbers.all fun digits => decide (digits ≠ []) && digits.all isDecimalDigit
    | [] => false

/-- `re_socket`. -/
def isSocketFolder (path : Text) : Bool := isFolder "intel-rapl".toList 1 path

/-- `re_domain`. -/
def isDomainFolder (path : Text) : Bool := isFolder "intel-rapl".toList 2 path

/-- `re_socket_mmio`. -/
def isSocketMmioFolder (path : Text) : Bool := isFolder "intel-rapl-mmio".toList 1 path

/-- `re_domain_mmio`. -/
def isDomainMmioFolder (path : Text) : Bool := isFolder "intel-rapl-mmio".toList 2 path

/-- How `generate_topology` can panic. -/
inductive DiscoveryPanic where
  | readDir
  | missingPiece
  | parseInt
  | unsupportedResource
  | unreadableName
  | noSocket
  deriving DecidableEq, Repr

/-- The number at the position in the path split at `:`. -/
def pieceOf (path : Text) (position : Nat) : Except DiscoveryPanic Nat :=
  match (path.splitOn ':')[position]? with
  | some piece =>
      match parseU16 piece with
      | some number => .ok number
      | none => .error .parseInt
  | none => .error .missingPiece

/-! ## Sockets and domains -/

inductive DomainResource where
  | memory
  | cpu
  | gpu
  deriving DecidableEq, Repr

def DomainResource.text : DomainResource → Text
  | .cpu => "core".toList
  | .gpu => "uncore".toList
  | .memory => "dram".toList

def DomainResource.parse (name : Text) : Except DiscoveryPanic DomainResource :=
  if name = "core".toList then .ok .cpu
  else if name = "uncore".toList then .ok .gpu
  else if name = "dram".toList then .ok .memory
  else .error .unsupportedResource

/-- The map `sensor_data` of a socket or a domain. -/
structure SensorData where
  sourceFile : Text
  maxEnergyRangeUj : Option Text
  relatedResource : Option Text
  mmio : Option Text
  deriving DecidableEq, Repr

structure FoundDomain where
  id : Nat
  name : Text
  counterUjPath : Text
  sensorData : SensorData
  deriving DecidableEq, Repr

structure FoundSocket where
  id : Nat
  domains : List FoundDomain
  counterUjPath : Text
  cpuCores : List Nat
  sensorData : SensorData
  deriving DecidableEq, Repr

/-- What the discovery fills of the topology. -/
structure FoundTopology where
  sockets : List FoundSocket
  domainsNames : Option (List Text)
  psys : Option Text
  deriving DecidableEq, Repr

namespace FoundTopology

def new : FoundTopology := ⟨[], none, none⟩

def safeAddSocket (topo : FoundTopology) (socket : FoundSocket) : FoundTopology :=
  if topo.sockets.any fun s => s.id = socket.id then topo
  else { topo with sockets := topo.sockets ++ [socket] }

/-- Builds a sorted list of all domains names from all sockets. -/
def buildDomainsNames (topo : FoundTopology) : FoundTopology :=
  let names := (topo.sockets.flatMap fun s => s.domains.map FoundDomain.name).dedup
  { topo with domainsNames := some (names.insertionSort (· ≤ ·)) }

def safeAddDomain (domain : FoundDomain) (socket : FoundSocket) : FoundSocket :=
  if socket.domains.any fun d => d.id = domain.id then socket
  else { socket with domains := socket.domains ++ [domain] }

def safeAddDomainToSocket (topo : FoundTopology) (socketId : Nat) (domain : FoundDomain) :
    FoundTopology :=
  buildDomainsNames { topo with
    sockets := topo.sockets.map fun s => if s.id = socketId then safeAddDomain domain s else s }

/-- A core goes to the socket of its physical id, or to the first one. -/
def addCpuCore (topo : FoundTopology) (core : Nat × Nat) : Except DiscoveryPanic FoundTopology :=
  let push (s : FoundSocket) : FoundSocket := { s with cpuCores := s.cpuCores ++ [core.1] }
  match topo.sockets with
  | [] => .error .noSocket
  | first :: rest =>
      match topo.sockets.findIdx? fun s => s.id = core.2 with
      | some index => .ok { topo with sockets := topo.sockets.modify index push }
      | none => .ok { topo with sockets := push first :: rest }

/-- `add_cpu_cores`, which pops the cores, given with their physical ids, from the end. -/
def addCpuCores (cores : List (Nat × Nat)) (topo : FoundTopology) :
    Except DiscoveryPanic FoundTopology :=
  cores.reverse.foldlM addCpuCore topo

end FoundTopology

/-! ## The passes -/

namespace Directory

/-- The socket that a folder of this socket id leads to. -/
def newSocket (directory : Directory) (socketId : Nat) : FoundSocket where
  id := socketId
  domains := []
  counterUjPath := directory.socketPath socketId ++ "/energy_uj".toList
  cpuCores := []
  sensorData :=
    { sourceFile := directory.socketPath socketId ++ "/energy_uj".toList
      maxEnergyRangeUj := (directory.socketMaxEnergyRangeUj socketId).map trim
      relatedResource := none
      mmio := none }

def newDomain (directory : Directory) (folder : Folder) (socketId domainId : Nat)
    (resource : DomainResource) : FoundDomain where
  id := domainId
  name := resource.text
  counterUjPath := directory.socketPath socketId ++ ':' :: toText domainId ++ "/energy_uj".toList
  sensorData :=
    { sourceFile := directory.socketPath socketId ++ ':' :: toText domainId ++ "/energy_uj".toList
      maxEnergyRangeUj := folder.maxEnergyRangeUj.map trim
      relatedResource := some resource.text
      mmio := none }

/-- The branch of `re_domain`.  The trimmed name that is stored is that of the resource, the
only names that `DomainResource::parse` lets pass. -/
def addDomainFolder (directory : Directory) (topo : FoundTopology) (folder : Folder) :
    Except DiscoveryPanic FoundTopology := do
  let socketId ← pieceOf (directory.path folder) 1
  let domainId ← pieceOf (directory.path folder) 2
  let topo := topo.safeAddSocket (directory.newSocket socketId)
  match folder.name with
  | some domainName => do
      let resource ← DomainResource.parse (trim domainName)
      return topo.safeAddDomainToSocket socketId
        (directory.newDomain folder socketId domainId resource)
  | none => return topo

/-- The branch of `re_socket_mmio`. -/
def attachSocketMmio (directory : Directory) (topo : FoundTopology) (folder : Folder) :
    Except DiscoveryPanic FoundTopology := do
  let socketId ← pieceOf (directory.path folder) 1
  let mmioFile := directory.basePath ++ "/intel-rapl-mmio:".toList ++ toText socketId ++
    "/energy_uj".toList
  return { topo with
    sockets := topo.sockets.map fun s =>
      if socketId = s.id then { s with sensorData := { s.sensorData with mmio := some mmioFile } }
      else s }

/-- What the branch of `re_domain_mmio` does to one domain; the name in the folder is read anew
for each. -/
def attachToDomain (directory : Directory) (folder : Folder) (domain : FoundDomain) :
    Except DiscoveryPanic FoundDomain :=
  match folder.name with
  | some nameInFolder =>
      .ok (if trim domain.name = trim nameInFolder then
        { domain with sensorData :=
          { domain.sensorData with mmio := some (directory.path folder ++ "/energy_uj".toList) } }
      else domain)
  | none => .error .unreadableName

def attachDomainMmio (directory : Directory) (topo : FoundTopology) (folder : Folder) :
    Except DiscoveryPanic FoundTopology := do
  let socketId ← pieceOf (directory.path folder) 1
  let sockets ← topo.sockets.mapM fun s =>
    if socketId = s.id then do
      let domains ← s.domains.mapM (directory.attachToDomain folder)
      return { s with domains := domains }
    else return s
  return { topo with sockets := sockets }

/-- The body of the first loop. -/
def addFolder (directory : Directory) (topo : FoundTopology) (folder : Folder) :
    Except DiscoveryPanic FoundTopology :=
  let folderName := directory.path folder
  if isDomainFolder folderName then directory.addDomainFolder topo folder
  else if isSocketMmioFolder folderName then directory.attachSocketMmio topo folder
  else if isDomainMmioFolder folderName then directory.attachDomainMmio topo folder
  else .ok topo

/-- The body of the second loop.  The name is compared as it was read, line feed included. -/
def addSocketFolder (directory : Directory) (topo : FoundTopology) (folder : Folder) :
    Except DiscoveryPanic FoundTopology :=
  match folder.name with
  | some domainName =>
      if domainName ≠ "psys".toList ∧ isSocketFolder (directory.path folder) then do
        let socketId ← pieceOf (directory.path folder) 1
        return topo.safeAddSocket (directory.newSocket socketId)
      else .ok topo
  | none => .ok topo

/-- The body of the third loop. -/
def findPsys (directory : Directory) (topo : FoundTopology) (folder : Folder) : FoundTopology :=
  match folder.name with
  | some domainName =>
      if trim domainName = "psys".toList then { topo with psys := some (directory.path folder) }
      else topo
  | none => topo

/-- `re_domain_matched`. -/
def domainMatched (directory : Directory) (folders : List Folder) : Bool :=
  folders.any fun folder => isDomainFolder (directory.path folder)

/-- `generate_topology` with the logical cores of the host and their physical ids. -/
def generateTopology (directory : Directory) (listing : Listing directory)
    (cores : List (Nat × Nat)) : Except DiscoveryPanic FoundTopology := do
  if directory.basePath = [] then throw .readDir
  let topo ← listing.first.foldlM directory.addFolder .new
  let topo ←
    if directory.domainMatched listing.first then pure topo
    else listing.second.foldlM directory.addSocketFolder topo
  (listing.third.foldl directory.findPsys topo).addCpuCores cores

end Directory

end ScaphandreFormal.Sensors.Powercap
