import ScaphandreFormal.Ebpf.AccountingRefinement
import ScaphandreFormal.Ebpf.Classification
import ScaphandreFormal.Ebpf.ExitCleanup
import ScaphandreFormal.Ebpf.StateWindows
import ScaphandreFormal.Exporters.ContainerIds
import ScaphandreFormal.Exporters.DockerEvents
import ScaphandreFormal.Exporters.DrivenTopology
import ScaphandreFormal.Exporters.Json
import ScaphandreFormal.Exporters.JsonReport
import ScaphandreFormal.Exporters.JsonUsage
import ScaphandreFormal.Exporters.Qemu
import ScaphandreFormal.Exporters.RoundTrip
import ScaphandreFormal.Exporters.ScrapeRuns
import ScaphandreFormal.Exporters.VmNames
import ScaphandreFormal.Sensors.Background
import ScaphandreFormal.Sensors.BackgroundSplit
import ScaphandreFormal.Sensors.BufferHistory
import ScaphandreFormal.Sensors.BufferLimits
import ScaphandreFormal.Sensors.Conservation
import ScaphandreFormal.Sensors.CoreDistribution
import ScaphandreFormal.Sensors.DiscoveredPackages
import ScaphandreFormal.Sensors.DiscoveryOrder
import ScaphandreFormal.Sensors.EventDelivery
import ScaphandreFormal.Sensors.HostPower
import ScaphandreFormal.Sensors.OnlineCpus
import ScaphandreFormal.Sensors.PidReuse
import ScaphandreFormal.Sensors.RecordOrder
import ScaphandreFormal.Sensors.SampleWindow
import ScaphandreFormal.Sensors.SnapshotRuns
import ScaphandreFormal.Sensors.TerminatedCleaning
import ScaphandreFormal.Sensors.TopConsumers
import ScaphandreFormal.Sensors.TopologyConstruction
import ScaphandreFormal.Sensors.WrapAround
import ScaphandreFormal.Exporters.CoreTimes
